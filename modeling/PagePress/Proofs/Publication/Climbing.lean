import PagePress.Proofs.OneLine
import PagePress.Proofs.Publication.Addresses
import PagePress.Proofs.Publication.Sidecars

/-!
# Paths that lead up

A published path is made of the folders in the options, the slug of its page, a language and an
extension. Slugs hold neither slashes nor dots, but a language is a text of the page as it stands,
so a slash in it makes folders. The text before its first slash goes with the slug and the text
after its last one with the extension; what stands between two slashes is a component of the path,
and that may be the double dot.

## Main results

* `cut_append_left`, `cut_append_right` — pieces of a text with more text at its ends.
* `climbs_fileNames` — which pages have files that lead up.
* `publishPages_climbs_iff` — when a published path leads up.
-/

namespace PagePress

namespace Text

/-- Text in front of another goes with its first piece. -/
theorem cut_append_left {separator : Char} {front : List Char} (h : separator ∉ front)
    (cs : List Char) : ∃ piece pieces, cut separator cs = piece :: pieces ∧
      cut separator (front ++ cs) = (front ++ piece) :: pieces := by
  obtain ⟨piece, pieces, hCut⟩ := List.exists_cons_of_ne_nil (cut_ne_nil separator cs)
  refine ⟨piece, pieces, hCut, ?_⟩
  induction front with
  | nil => exact hCut
  | cons c front ih =>
      obtain ⟨hHead, hTail⟩ := not_or.1 fun hOr => h (List.mem_cons.2 hOr)
      rw [List.cons_append, cut, if_neg (Ne.symm hHead), ih hTail]
      rfl

/-- Text behind another goes with its last piece. -/
theorem cut_append_right {separator : Char} {back : List Char} (h : separator ∉ back)
    (cs : List Char) : ∃ pieces piece, cut separator cs = pieces ++ [piece] ∧
      cut separator (cs ++ back) = pieces ++ [piece ++ back] := by
  induction cs with
  | nil => exact ⟨[], [], rfl, by rw [List.nil_append, cut_of_not_mem h]; rfl⟩
  | cons c cs ih =>
      obtain ⟨pieces, piece, hCut, hBack⟩ := ih
      rw [List.cons_append, cut, cut, hCut, hBack]
      split
      · exact ⟨[] :: pieces, piece, rfl, rfl⟩
      · cases pieces with
        | nil => exact ⟨[], c :: piece, rfl, rfl⟩
        | cons first rest => exact ⟨(c :: first) :: rest, piece, rfl, rfl⟩

end Text

namespace Route

/-! ## Components -/

/-- A double dot is among the components of a path. -/
def Climbs (path : String) : Prop := ".." ∈ Text.cutText '/' path

/-- A double dot stands between two slashes of a language. -/
def ClimbsBetween (lang : String) : Prop := ".." ∈ (Text.cutText '/' lang).tail.dropLast

instance (path : String) : Decidable (Climbs path) := by
  unfold Climbs
  infer_instance

instance (lang : String) : Decidable (ClimbsBetween lang) := by
  unfold ClimbsBetween
  infer_instance

theorem mem_map_ofList {text : String} {pieces : List (List Char)} :
    text ∈ pieces.map String.ofList ↔ text.toList ∈ pieces := by
  constructor
  · intro h
    obtain ⟨piece, hPiece, rfl⟩ := List.mem_map.1 h
    rwa [String.toList_ofList]
  · intro h
    exact List.mem_map.2 ⟨text.toList, h, String.ofList_toList⟩

theorem climbs_iff {path : String} : Climbs path ↔ ['.', '.'] ∈ Text.cut '/' path.toList :=
  mem_map_ofList

theorem climbsBetween_iff {lang : String} :
    ClimbsBetween lang ↔ ['.', '.'] ∈ (Text.cut '/' lang.toList).tail.dropLast := by
  rw [ClimbsBetween, Text.cutText, ← List.map_tail, ← List.map_dropLast]
  exact mem_map_ofList

/-- Between a name and an extension a language leads up by what stands between two slashes. -/
theorem mem_cut_between {front back cs : List Char} (hFront : '/' ∉ front) (hBack : '/' ∉ back)
    (hDash : '-' ∈ front) (hLast : ∀ piece, piece ++ back ≠ ['.', '.']) :
    ['.', '.'] ∈ Text.cut '/' (front ++ cs ++ back) ↔
      ['.', '.'] ∈ (Text.cut '/' cs).tail.dropLast := by
  obtain ⟨piece, pieces, hCut, hLeft⟩ := Text.cut_append_left hFront cs
  obtain ⟨others, last, hSame, hRight⟩ := Text.cut_append_right hBack (front ++ cs)
  have hFirst : ['.', '.'] ≠ front ++ piece := by
    intro h
    have hMem : '-' ∈ ['.', '.'] := h ▸ List.mem_append_left _ hDash
    exact absurd hMem (by decide)
  have hOthers : others = ((front ++ piece) :: pieces).dropLast := by
    rw [← hLeft, hSame, List.dropLast_concat]
  rw [hRight, List.mem_append, List.mem_singleton, hCut, List.tail_cons, hOthers,
    or_iff_left (hLast last).symm]
  cases pieces with
  | nil => simp
  | cons next rest => rw [List.dropLast_cons_cons, List.mem_cons, or_iff_right hFirst]

/-! ## Folders -/

theorem mem_cut_dropLeadingSlash {piece cs : List Char}
    (h : piece ∈ Text.cut '/' (dropLeadingSlash cs)) : piece ∈ Text.cut '/' cs := by
  unfold dropLeadingSlash at h
  split at h
  · rw [Text.cut, if_pos rfl]
    exact List.mem_cons_of_mem _ h
  · exact h

theorem mem_cut_dropTrailingSlash {piece cs : List Char}
    (h : piece ∈ Text.cut '/' (dropTrailingSlash cs)) : piece ∈ Text.cut '/' cs := by
  rcases dropTrailingSlash_cases cs with hKept | hDropped
  · rwa [hKept] at h
  · rw [hDropped, Text.cut_append]
    exact List.mem_append_left _ h

/-- A segment leads up only when its text does. -/
theorem climbs_of_trimSlashes {segment : String} (h : Climbs (trimSlashes segment)) :
    Climbs segment := by
  rw [climbs_iff, trimSlashes, String.toList_ofList] at h
  exact climbs_iff.2 (mem_cut_dropLeadingSlash (mem_cut_dropTrailingSlash h))

/-- The components of segments that each have a slash behind them. -/
theorem cut_folders (segments : List String) (rest : List Char) :
    Text.cut '/' ((String.join (segments.map (· ++ "/"))).toList ++ rest) =
      segments.flatMap (fun segment => Text.cut '/' segment.toList) ++ Text.cut '/' rest := by
  induction segments with
  | nil => rfl
  | cons segment segments ih =>
      have hChars : (String.join ((segment :: segments).map (· ++ "/"))).toList ++ rest =
          segment.toList ++ '/' :: ((String.join (segments.map (· ++ "/"))).toList ++ rest) := by
        simp [String.join_cons, String.toList_append]
      rw [hChars, Text.cut_append, ih, List.flatMap_cons, List.append_assoc]

/-- The folders that templates lie in do not lead up. -/
def StaysDown (folders : Folders) : Prop :=
  ∀ folder ∈ rootFolders folders ++ [folders.html], ¬ Climbs folder

instance (folders : Folders) : Decidable (StaysDown folders) := by
  unfold StaysDown
  infer_instance

/-- The folder of templates is a slash and segments that each have a slash behind them. -/
theorem toList_templateFolder (options : Options) : ∃ segments : List String,
    (∀ segment ∈ segments, ∃ folder ∈ rootFolders options.folders ++ [options.folders.html],
      trimSlashes folder = segment) ∧
    (templateFolder options).toList =
      '/' :: (String.join (segments.map (· ++ "/"))).toList := by
  unfold templateFolder
  cases options.enabled with
  | false => exact ⟨[], fun _ hMem => absurd hMem List.not_mem_nil, by rw [if_neg (by decide)]; rfl⟩
  | true =>
      refine ⟨((rootFolders options.folders ++ [options.folders.html]).map trimSlashes).filter
        fun segment => !segment.isEmpty,
        fun segment hSegment => List.mem_map.1 (List.mem_filter.1 hSegment).1, ?_⟩
      rw [if_pos rfl, String.toList_append]
      rfl

/-- Below folders that do not lead up a path leads up by its name. -/
theorem climbs_templateFolder {options : Options} (h : StaysDown options.folders) (text : String) :
    Climbs (templateFolder options ++ text) ↔ Climbs text := by
  obtain ⟨segments, hSegments, hFolder⟩ := toList_templateFolder options
  have hDown : ['.', '.'] ∉ segments.flatMap fun segment => Text.cut '/' segment.toList := by
    intro hMem
    obtain ⟨segment, hSegment, hUp⟩ := List.mem_flatMap.1 hMem
    obtain ⟨folder, hFolder, rfl⟩ := hSegments segment hSegment
    exact h folder hFolder (climbs_of_trimSlashes (climbs_iff.2 hUp))
  rw [climbs_iff, climbs_iff, String.toList_append, hFolder, List.cons_append, Text.cut, if_pos rfl,
    List.mem_cons, or_iff_right (by decide), cut_folders, List.mem_append, or_iff_right hDown]

end Route

namespace Assembly

open Route

variable {options : Options}

/-! ## Names -/

theorem slash_not_mem_pageSlug (name : String) : '/' ∉ (pageSlug name).toList :=
  fun hMem => absurd (isWordChar_of_mem_slugify hMem) (by decide)

/-- The name of a page leads up by its language. -/
theorem climbs_languageName (slug lang extension : String) (hSlug : '/' ∉ slug.toList)
    (hExtension : '/' ∉ extension.toList)
    (hLast : ∀ piece, piece ++ extension.toList ≠ ['.', '.']) :
    Climbs (languageName slug lang ++ extension) ↔ ClimbsBetween lang := by
  have hChars : (languageName slug lang ++ extension).toList =
      (slug.toList ++ ['-']) ++ lang.toList ++ extension.toList := by
    simp [languageName, String.toList_append]
  rw [climbs_iff, climbsBetween_iff, hChars]
  refine mem_cut_between ?_ hExtension (by simp) hLast
  simpa using hSlug

/-- A slug with an extension does not lead up. -/
theorem not_climbs_slug (slug extension : String) (hSlug : '/' ∉ slug.toList)
    (hExtension : '/' ∉ extension.toList)
    (hLast : ∀ piece, piece ++ extension.toList ≠ ['.', '.']) : ¬ Climbs (slug ++ extension) := by
  rw [climbs_iff, String.toList_append, Text.cut_of_not_mem (by simp [hSlug, hExtension]),
    List.mem_singleton]
  exact (hLast _).symm

theorem append_html_ne (piece : List Char) : piece ++ ".html".toList ≠ ['.', '.'] := by
  intro h
  have hLast := congrArg List.getLast? h
  simp at hLast

theorem append_dataJs_ne (piece : List Char) : piece ++ ".11tydata.js".toList ≠ ['.', '.'] := by
  intro h
  have hLast := congrArg List.getLast? h
  simp at hLast

/-- The files of a page with a name lead up when the name does with either extension. -/
theorem exists_climbs_filePaths (h : StaysDown options.folders) (hasData : Bool) (name : String) :
    (∃ path ∈ filePaths options hasData name, Climbs path) ↔
      Climbs (name ++ ".html") ∨ hasData = true ∧ Climbs (name ++ ".11tydata.js") := by
  have hPath : ∀ extension, Climbs (templateFolder options ++ name ++ extension) ↔
      Climbs (name ++ extension) := by
    intro extension
    rw [String.append_assoc]
    exact climbs_templateFolder h _
  constructor
  · rintro ⟨path, hMem, hUp⟩
    rcases mem_filePaths.1 hMem with rfl | ⟨hData, rfl⟩
    · exact .inl ((hPath _).1 hUp)
    · exact .inr ⟨hData, (hPath _).1 hUp⟩
  · rintro (hUp | ⟨hData, hUp⟩)
    · exact ⟨_, mem_filePaths.2 (.inl rfl), (hPath _).2 hUp⟩
    · exact ⟨_, mem_filePaths.2 (.inr ⟨hData, rfl⟩), (hPath _).2 hUp⟩

/-- A page without languages has no file that leads up. -/
theorem not_climbs_filePaths_slug (h : StaysDown options.folders) (hasData : Bool)
    (name : String) : ¬ ∃ path ∈ filePaths options hasData (pageSlug name), Climbs path := by
  rw [exists_climbs_filePaths h]
  rintro (hUp | ⟨-, hUp⟩)
  · exact not_climbs_slug _ _ (slash_not_mem_pageSlug name) (by decide) append_html_ne hUp
  · exact not_climbs_slug _ _ (slash_not_mem_pageSlug name) (by decide) append_dataJs_ne hUp

/-- A page in a language has files that lead up when the language does. -/
theorem climbs_filePaths_language (h : StaysDown options.folders) (hasData : Bool)
    (name lang : String) :
    (∃ path ∈ filePaths options hasData (languageName (pageSlug name) lang), Climbs path) ↔
      ClimbsBetween lang := by
  have hSlug := slash_not_mem_pageSlug name
  rw [exists_climbs_filePaths h,
    climbs_languageName _ lang _ hSlug (by decide) append_html_ne,
    climbs_languageName _ lang _ hSlug (by decide) append_dataJs_ne]
  exact ⟨fun hUp => hUp.elim id And.right, .inl⟩

/-- The files of a page lead up when one of its languages does. -/
theorem climbs_fileNames (h : StaysDown options.folders) (hasData : Bool) (page : Page) :
    (∃ path ∈ (fileNames page).flatMap (filePaths options hasData), Climbs path) ↔
      ∃ lang ∈ page.settings.languages, ClimbsBetween lang := by
  unfold fileNames
  cases page.settings.languages with
  | nil =>
      rw [List.flatMap_singleton]
      exact iff_of_false (not_climbs_filePaths_slug h hasData page.name)
        fun ⟨_, hMem, _⟩ => absurd hMem List.not_mem_nil
  | cons lang langs =>
      simp only [List.mem_flatMap, List.mem_map, ← climbs_filePaths_language h hasData page.name]
      constructor
      · rintro ⟨path, ⟨_, ⟨other, hOther, rfl⟩, hPath⟩, hUp⟩
        exact ⟨other, hOther, path, hPath, hUp⟩
      · rintro ⟨other, hOther, path, hPath, hUp⟩
        exact ⟨path, ⟨_, ⟨other, hOther, rfl⟩, hPath⟩, hUp⟩

end Assembly

/-! ## Published paths -/

open Publisher Assembly Route

variable {host : Host} {options : Options} {context : Context} {pages : List Page}

/-- When a pass for the generator does not fail, the paths of its files are those of all names of
the pages that did not fail. -/
theorem mem_paths_iff (hEnabled : options.enabled = true)
    (hOk : (publishPages host options pages context).1 = none) {path : String} :
    path ∈ (publishPages host options pages context).2.files.map PublishedFile.path ↔
      ∃ page ∈ pages, pageFault? host options context page = none ∧
        path ∈ (fileNames (validated page).1).flatMap
          (filePaths options (hasData host (validated page).1)) := by
  obtain ⟨hStock, -⟩ := publishPages_stock hEnabled hOk
  rw [hStock.paths.mem_iff, List.map_nil, List.nil_append, List.mem_flatMap]
  constructor
  · rintro ⟨done, hDone, hPath⟩
    obtain ⟨page, hPage, hRendered⟩ := List.mem_filterMap.1 hDone
    obtain ⟨hRender, rfl⟩ := rendered?_eq_some.1 hRendered
    cases hHeader : headerFault? options context (validated page).1 with
    | some error => simp [publishedPaths, publishedNames, hHeader] at hPath
    | none =>
        refine ⟨page, hPage, by rw [pageFault?, hRender, hHeader]; rfl, ?_⟩
        rwa [publishedPaths, publishedNames, hHeader] at hPath
  · rintro ⟨page, hPage, hFault, hPath⟩
    obtain ⟨hRendered, hNames⟩ := publishedNames_of_pageFault? hFault
    refine ⟨_, List.mem_filterMap.2 ⟨page, hPage, hRendered⟩, ?_⟩
    rwa [publishedPaths, hNames]

/-- When a pass does not fail and the folders in its options do not lead up, a path of its files
leads up exactly when it is for the generator and a page that did not fail has a language with a
double dot between two slashes. -/
theorem publishPages_climbs_iff (hFolders : StaysDown options.folders)
    (hOk : (publishPages host options pages context).1 = none) :
    (∃ file ∈ (publishPages host options pages context).2.files, Climbs file.path) ↔
      options.enabled = true ∧ ∃ page ∈ pages, pageFault? host options context page = none ∧
        ∃ lang ∈ page.settings.languages, ClimbsBetween lang := by
  have hMap : (∃ file ∈ (publishPages host options pages context).2.files, Climbs file.path) ↔
      ∃ path ∈ (publishPages host options pages context).2.files.map PublishedFile.path,
        Climbs path := by
    simp
  rw [hMap]
  cases hEnabled : options.enabled with
  | false =>
      refine iff_of_false ?_ (fun h => absurd h.1 (by decide))
      rintro ⟨path, hPath, hUp⟩
      obtain ⟨draft, -, hFiles, -, hRun⟩ := publishPages_run host options pages context
      rw [hRun, if_neg (by rw [hEnabled]; decide)] at hPath
      rw [paths_of_renderings hFiles] at hPath
      obtain ⟨page, -, rfl⟩ := List.mem_map.1 hPath
      rw [pagePath_eq] at hUp
      exact not_climbs_filePaths_slug hFolders false page.name ⟨_, mem_filePaths.2 (.inl rfl), hUp⟩
  | true =>
      have hPage : ∀ page, (∃ path ∈ (fileNames (validated page).1).flatMap
          (filePaths options (hasData host (validated page).1)), Climbs path) ↔
          ∃ lang ∈ page.settings.languages, ClimbsBetween lang := by
        intro page
        rw [climbs_fileNames hFolders, languages_validated]
      rw [and_iff_right rfl]
      simp only [mem_paths_iff hEnabled hOk, ← hPage]
      constructor
      · rintro ⟨path, ⟨page, hMem, hFault, hPath⟩, hUp⟩
        exact ⟨page, hMem, hFault, path, hPath, hUp⟩
      · rintro ⟨page, hMem, hFault, path, hPath, hUp⟩
        exact ⟨path, ⟨page, hMem, hFault, hPath⟩, hUp⟩

end PagePress
