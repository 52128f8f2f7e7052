import PagePress.Proofs.Publication.Paths
import PagePress.Proofs.Runs

/-!
# Joined paths

A path is made of names with slashes between them. Joining loses no name and makes none, however
many slashes the segments have at their ends: one slash at either end is dropped, and where more are
left they stand between the names. Segments in which no two slashes stand side by side join to a
path of the same kind, which is a slash and its names with single slashes between them. Such paths
can be joined in parts.

A file of a kind that has a folder of its own can be written with the folder or without it, and with
a slash in front or without one. All of these lead to the same place under the folder in the
options, and to the same address under the address there.

## Main results

* `components_joined` — the names of a joined path.
* `joined_names` — the form of a joined path, and joining in parts.
* `spellings_agree` — the spellings of a file have one location and one address.
-/

namespace PagePress.Route

open Text

variable {segment path x folder : String} {segments : List String} {cs : List Char}

/-! ## Names -/

/-- The names in a path: the texts between its slashes. -/
def components (path : String) : List String := (runs '/' path.toList).map String.ofList

/-- No two slashes stand side by side. -/
def SingleSlashes (path : String) : Prop := ¬ ['/', '/'] <:+: path.toList

theorem runs_dropLeadingSlash (cs : List Char) : runs '/' (dropLeadingSlash cs) = runs '/' cs := by
  unfold dropLeadingSlash
  split
  · exact (runs_cons _).symm
  · rfl

theorem runs_dropTrailingSlash (cs : List Char) :
    runs '/' (dropTrailingSlash cs) = runs '/' cs := by
  rcases dropTrailingSlash_cases cs with hKept | hDropped
  · rw [hKept]
  · rw [← runs_concat (dropTrailingSlash cs), ← hDropped]

theorem runs_trimSlashes (segment : String) :
    runs '/' (trimSlashes segment).toList = runs '/' segment.toList := by
  rw [trimSlashes, String.toList_ofList, runs_dropTrailingSlash, runs_dropLeadingSlash]

/-- The segments of which something is left without their slashes. -/
def keptSegments (segments : List String) : List String :=
  (segments.map trimSlashes).filter fun segment => !segment.isEmpty

theorem joined_eq (segments : List String) :
    joined segments = "/" ++ "/".intercalate (keptSegments segments) := rfl

theorem toList_joined (segments : List String) : (joined segments).toList =
    '/' :: ['/'].intercalate ((keptSegments segments).map String.toList) := by
  rw [joined_eq, String.toList_append, String.toList_intercalate]
  rfl

/-- Nothing is lost with the segments of which nothing is left. -/
theorem flatMap_runs_keptSegments (segments : List String) :
    (keptSegments segments).flatMap (fun segment => runs '/' segment.toList) =
      segments.flatMap fun segment => runs '/' segment.toList := by
  induction segments with
  | nil => rfl
  | cons segment segments ih =>
      rw [List.flatMap_cons, ← ih, ← runs_trimSlashes, keptSegments, List.map_cons]
      by_cases hEmpty : trimSlashes segment = ""
      · rw [hEmpty]
        rfl
      · rw [List.filter_cons_of_pos (by simpa using hEmpty)]
        rfl

theorem runs_joined (segments : List String) : runs '/' (joined segments).toList =
    segments.flatMap fun segment => runs '/' segment.toList := by
  rw [toList_joined, runs_cons, runs_intercalate, List.flatMap_map, flatMap_runs_keptSegments]

/-- The names of a joined path are those of its segments, in order. -/
theorem components_joined (segments : List String) :
    components (joined segments) = segments.flatMap components := by
  rw [components, runs_joined, List.map_flatMap]
  rfl

/-! ## Single slashes -/

theorem not_slash_prefix_dropLeadingSlash (h : ¬ ['/', '/'] <:+: cs) :
    ¬ ['/'] <+: dropLeadingSlash cs := by
  unfold dropLeadingSlash
  split
  · rintro ⟨rest, rfl⟩
    exact h ⟨[], rest, rfl⟩
  · rename_i hOther
    rintro ⟨rest, rfl⟩
    exact hOther rest rfl

theorem dropLeadingSlash_suffix (cs : List Char) : dropLeadingSlash cs <:+ cs := by
  unfold dropLeadingSlash
  split
  · exact List.suffix_cons _ _
  · exact List.suffix_rfl

/-- What is left of a segment with single slashes has none at its ends. -/
theorem isTight_trimSlashes (h : SingleSlashes segment) :
    IsTight '/' (trimSlashes segment).toList := by
  rw [trimSlashes, String.toList_ofList]
  have hStart := not_slash_prefix_dropLeadingSlash h
  have hApart : ¬ ['/', '/'] <:+: dropLeadingSlash segment.toList :=
    fun hTwo => h (hTwo.trans (dropLeadingSlash_suffix _).isInfix)
  generalize dropLeadingSlash segment.toList = cs at hStart hApart
  have hPrefix : dropTrailingSlash cs <+: cs := by
    rcases dropTrailingSlash_cases cs with hKept | hDropped
    · exact ⟨[], by rw [hKept, List.append_nil]⟩
    · exact ⟨['/'], hDropped.symm⟩
  refine ⟨fun hSlash => hStart (hSlash.trans hPrefix), ?_,
    fun hTwo => hApart (hTwo.trans hPrefix.isInfix)⟩
  rintro ⟨front, hFront⟩
  rcases dropTrailingSlash_cases cs with hKept | hDropped
  · rw [hKept] at hFront
    rw [← hFront, dropTrailingSlash_slash] at hKept
    simp at hKept
  · exact hApart ⟨front, [], by rw [hDropped, ← hFront]; simp⟩

theorem toList_joined_of_single (h : ∀ segment ∈ segments, SingleSlashes segment) :
    (joined segments).toList =
      '/' :: ['/'].intercalate (segments.flatMap fun segment => runs '/' segment.toList) := by
  have hRuns : ∀ segment ∈ keptSegments segments,
      ['/'].intercalate (runs '/' segment.toList) = segment.toList := by
    intro kept hMem
    obtain ⟨segment, hSegment, rfl⟩ := List.mem_map.1 (List.mem_filter.1 hMem).1
    exact intercalate_runs (isTight_trimSlashes (h segment hSegment))
  have hSome : ∀ segment ∈ keptSegments segments, runs '/' segment.toList ≠ [] := by
    intro kept hMem hNone
    have hEmpty := hRuns kept hMem
    rw [hNone, List.intercalate_nil] at hEmpty
    have hText := (List.mem_filter.1 hMem).2
    rw [String.toList_eq_nil_iff.1 hEmpty.symm] at hText
    exact absurd hText (by decide)
  rw [toList_joined, ← List.map_congr_left hRuns, intercalate_flatMap hSome,
    flatMap_runs_keptSegments]

/-- A path joined from segments with single slashes has single slashes, and none at its end. -/
theorem single_joined (h : ∀ segment ∈ segments, SingleSlashes segment) :
    SingleSlashes (joined segments) ∧
      (joined segments = "/" ∨ ¬ ['/'] <:+ (joined segments).toList) := by
  have hTight : IsTight '/'
      (['/'].intercalate (segments.flatMap fun segment => runs '/' segment.toList)) := by
    refine isTight_intercalate fun piece hMem => ?_
    obtain ⟨segment, -, hPiece⟩ := List.mem_flatMap.1 hMem
    exact isRun_of_mem_runs hPiece
  have hText := toList_joined_of_single h
  generalize ['/'].intercalate (segments.flatMap fun segment => runs '/' segment.toList) = names
    at hTight hText
  constructor
  · rw [SingleSlashes, hText, List.infix_cons_iff, List.cons_prefix_cons]
    rintro (⟨-, hSlash⟩ | hTwo)
    · exact hTight.start hSlash
    · exact hTight.apart hTwo
  · rw [hText, List.suffix_cons_iff]
    cases names with
    | nil => exact .inl (String.toList_inj.1 hText)
    | cons c rest =>
        refine .inr fun hSlash => ?_
        rcases hSlash with hSame | hSlash
        · exact absurd (List.cons.inj hSame).2 (by simp)
        · exact hTight.finish hSlash

/-- Segments with single slashes can be joined in parts. -/
theorem joined_append {more : List String} (h : ∀ segment ∈ segments, SingleSlashes segment)
    (hMore : ∀ segment ∈ more, SingleSlashes segment) :
    joined (segments ++ more) = joined [joined segments, joined more] := by
  have hAll : ∀ segment ∈ segments ++ more, SingleSlashes segment :=
    List.forall_mem_append.2 ⟨h, hMore⟩
  have hParts : ∀ segment ∈ [joined segments, joined more], SingleSlashes segment := by
    simpa using ⟨(single_joined h).1, (single_joined hMore).1⟩
  rw [← String.toList_inj, toList_joined_of_single hAll, toList_joined_of_single hParts,
    List.flatMap_append, List.flatMap_cons, List.flatMap_cons, List.flatMap_nil, List.append_nil,
    runs_joined, runs_joined]

/-- A joined path starts with a slash, and its names are those of its segments, in order. When no
two slashes stand side by side in any segment, none do in the path, and it does not end in a slash
unless it is nothing else; and two lists of such segments join to the same path at once and in
parts. -/
theorem joined_names (segments : List String) :
    ['/'] <+: (joined segments).toList ∧
      components (joined segments) = segments.flatMap components ∧
      ((∀ segment ∈ segments, SingleSlashes segment) →
        SingleSlashes (joined segments) ∧
          (joined segments = "/" ∨ ¬ ['/'] <:+ (joined segments).toList) ∧
          ∀ more : List String, (∀ segment ∈ more, SingleSlashes segment) →
            joined (segments ++ more) = joined [joined segments, joined more]) := by
  refine ⟨⟨_, (toList_joined segments).symm⟩, components_joined segments, fun h => ?_⟩
  obtain ⟨hSingle, hEnd⟩ := single_joined h
  exact ⟨hSingle, hEnd, fun more hMore => joined_append h hMore⟩

/-- Folders of a site with spare slashes at their ends. -/
def siteFolders : List String := ["src/", "", "/a/b/", "/"]

theorem siteFolders_joined :
    components (joined siteFolders) = ["src", "a", "b"] ∧ SingleSlashes (joined siteFolders) ∧
      joined siteFolders = "/src/a/b" ∧
      joined (siteFolders ++ ["css", "/x.css"]) =
        joined [joined siteFolders, joined ["css", "/x.css"]] := by
  have hSingle : ∀ segment ∈ siteFolders, SingleSlashes segment := by
    simp only [siteFolders, SingleSlashes]
    decide
  have hMore : ∀ segment ∈ ["css", "/x.css"], SingleSlashes segment := by
    simp only [SingleSlashes]
    decide
  obtain ⟨-, hNames, hForm⟩ := joined_names siteFolders
  obtain ⟨hJoined, -, hAppend⟩ := hForm hSingle
  exact ⟨hNames.trans (by decide +kernel), hJoined, by decide +kernel, hAppend _ hMore⟩

/-! ## Spellings of files -/

/-- A name below a folder. -/
def below (folder name : String) : String :=
  if folder = "/" then "/" ++ name else folder ++ "/" ++ name

/-- A last segment of which something is left lies below the others. -/
theorem joined_concat (h : trimSlashes segment ≠ "") (segments : List String) :
    joined (segments ++ [segment]) = below (joined segments) (trimSlashes segment) := by
  have hKept : keptSegments (segments ++ [segment]) =
      keptSegments segments ++ [trimSlashes segment] := by
    rw [keptSegments, List.map_append, List.filter_append, List.map_singleton,
      List.filter_cons_of_pos (by simpa using h)]
    rfl
  rw [joined_eq, joined_eq, hKept, below]
  cases hFolders : keptSegments segments with
  | nil => rfl
  | cons first rest =>
      have hFirst : first ≠ "" := by
        rintro rfl
        have hMem : "" ∈ keptSegments segments := hFolders ▸ List.mem_cons_self
        exact absurd (List.mem_filter.1 hMem).2 (by decide)
      have hBelow : "/" ++ "/".intercalate (first :: rest) ≠ "/" := by
        rw [ne_eq, String.append_eq_left_iff]
        cases rest <;> simp [hFirst]
      rw [if_neg hBelow, String.intercalate_append_of_ne_nil (List.cons_ne_nil _ _)
        (List.cons_ne_nil _ _), String.intercalate_singleton]
      simp only [String.append_assoc]

/-- A path to a file in a folder of its kind, without the folder and without a slash in front. -/
structure IsBare (folder x : String) : Prop where
  text : x ≠ ""
  slash : ¬ ['/'] <+: x.toList
  folder : ¬ (folder ++ "/").toList <+: x.toList

/-- The ways to write a file in a folder of its kind. -/
def spellings (folder x : String) : List String :=
  [x, "/" ++ x, folder ++ "/" ++ x, "/" ++ folder ++ "/" ++ x]

theorem dropLeadingSlash_eq_self (h : ¬ ['/'] <+: cs) : dropLeadingSlash cs = cs := by
  unfold dropLeadingSlash
  split
  · rename_i rest
    exact absurd ⟨rest, rfl⟩ h
  · rfl

theorem dropLeadingSlash_slash (text : String) :
    dropLeadingSlash ("/" ++ text).toList = text.toList := by
  rw [String.toList_append]
  rfl

theorem trimSlashes_slash_append (h : ¬ ['/'] <+: x.toList) :
    trimSlashes ("/" ++ x) = trimSlashes x := by
  rw [trimSlashes, trimSlashes, dropLeadingSlash_slash, dropLeadingSlash_eq_self h]

theorem trimSlashes_ne_empty (hText : x ≠ "") (hSlash : ¬ ['/'] <+: x.toList) :
    trimSlashes x ≠ "" := by
  intro hEmpty
  have hDropped : dropTrailingSlash x.toList = [] := by
    have hChars := congrArg String.toList hEmpty
    rwa [trimSlashes, String.toList_ofList, dropLeadingSlash_eq_self hSlash] at hChars
  rcases dropTrailingSlash_cases x.toList with hKept | hOne
  · exact hText (String.toList_eq_nil_iff.1 (hKept.symm.trans hDropped))
  · exact hSlash (by rw [hOne, hDropped]; exact List.prefix_rfl)

theorem dropFolder_of_after? {rest : List Char}
    (h : dropLeadingSlash path.toList = (folder ++ "/").toList ++ rest) :
    dropFolder folder path = String.ofList rest := by
  rw [dropFolder, h, after?_append]

theorem dropFolder_of_other (h : ¬ (folder ++ "/").toList <+: dropLeadingSlash path.toList) :
    dropFolder folder path = path := by
  rw [dropFolder]
  split
  · rename_i rest hRest
    exact absurd ⟨rest, (after?_eq_some hRest).symm⟩ h
  · rfl

/-- Without its folder, and without a slash in front and behind, every spelling is the same. -/
theorem trimSlashes_dropFolder (hFolder : ¬ ['/'] <+: (folder ++ "/").toList) (h : IsBare folder x)
    {spelling : String} (hSpelling : spelling ∈ spellings folder x) :
    trimSlashes (dropFolder folder spelling) = trimSlashes x := by
  have hStart := dropLeadingSlash_eq_self h.slash
  have hInside : (folder ++ "/" ++ x).toList = (folder ++ "/").toList ++ x.toList :=
    String.toList_append
  have hOutside : ¬ ['/'] <+: (folder ++ "/" ++ x).toList := by
    rw [hInside]
    intro hSlash
    obtain ⟨c, rest, hChars⟩ := List.exists_cons_of_ne_nil
      (show (folder ++ "/").toList ≠ [] by simp)
    rw [hChars] at hFolder hSlash
    exact hFolder (List.cons_prefix_cons.2 ⟨(List.cons_prefix_cons.1 hSlash).1, List.nil_prefix⟩)
  simp only [spellings, List.mem_cons, List.not_mem_nil, or_false] at hSpelling
  rcases hSpelling with rfl | rfl | rfl | rfl
  · rw [dropFolder_of_other (by rw [hStart]; exact h.folder)]
  · rw [dropFolder_of_other (by rw [dropLeadingSlash_slash]; exact h.folder),
      trimSlashes_slash_append h.slash]
  · rw [dropFolder_of_after? (by rw [dropLeadingSlash_eq_self hOutside, hInside]),
      String.ofList_toList]
  · have hFront : "/" ++ folder ++ "/" ++ x = "/" ++ (folder ++ "/" ++ x) := by
      simp only [String.append_assoc]
    rw [hFront, dropFolder_of_after? (by rw [dropLeadingSlash_slash, hInside]),
      String.ofList_toList]

/-- A file in a folder of its kind lies below any segments alike, however it is written. -/
theorem joined_spelling (hFolder : ¬ ['/'] <+: (folder ++ "/").toList) (h : IsBare folder x)
    {spelling : String} (hSpelling : spelling ∈ spellings folder x) (segments : List String) :
    joined (segments ++ [dropFolder folder spelling]) =
      below (joined segments) (trimSlashes x) := by
  have hSame := trimSlashes_dropFolder hFolder h hSpelling
  have hSome := trimSlashes_ne_empty h.text h.slash
  rw [joined_concat (by rwa [hSame]), hSame]

/-- A style sheet that is written with its folder or without it, and with a slash in front or
without one, lies at one place and is found under one address: the folder for style sheets and their
address in the options, each with the same name below it. The same goes for assets. -/
theorem spellings_agree {options : Options} (hEnabled : options.enabled = true) (x : String) :
    (IsBare "css" x → trimSlashes x ≠ "" ∧ ∀ spelling ∈ spellings "css" x,
      location options .css spelling =
          below (joined (rootFolders options.folders ++ [options.folders.css])) (trimSlashes x) ∧
        address options .css spelling = below (joined [options.addresses.css]) (trimSlashes x)) ∧
      (IsBare "assets" x → trimSlashes x ≠ "" ∧ ∀ spelling ∈ spellings "assets" x,
        location options .asset spelling =
            below (joined (rootFolders options.folders ++ [options.folders.assets]))
              (trimSlashes x) ∧
          address options .asset spelling =
            below (joined [options.addresses.assets]) (trimSlashes x)) := by
  constructor
  · refine fun h => ⟨trimSlashes_ne_empty h.text h.slash, fun spelling hSpelling => ?_⟩
    have hJoined := joined_spelling (by decide) h hSpelling
    rw [← hJoined, ← hJoined, location, address, hEnabled, List.append_assoc]
    exact ⟨rfl, rfl⟩
  · refine fun h => ⟨trimSlashes_ne_empty h.text h.slash, fun spelling hSpelling => ?_⟩
    have hJoined := joined_spelling (by decide) h hSpelling
    rw [← hJoined, ← hJoined, location, address, hEnabled, List.append_assoc]
    exact ⟨rfl, rfl⟩

/-- Options without a folder for style sheets and with slashes around that for assets. -/
def slashedOptions : Options where
  folders := { input := "/src/", css := "", assets := "/media/" }
  addresses := { css := "", assets := "cdn/assets/" }

theorem slashedOptions_agree :
    slashedOptions.enabled = true ∧ IsBare "css" "cssx/" ∧ IsBare "assets" "css/a.png" ∧
      (∀ spelling ∈ spellings "css" "cssx/", location slashedOptions .css spelling = "/src/cssx" ∧
        address slashedOptions .css spelling = "/cssx") ∧
      ∀ spelling ∈ spellings "assets" "css/a.png",
        location slashedOptions .asset spelling = "/src/media/css/a.png" ∧
          address slashedOptions .asset spelling = "/cdn/assets/css/a.png" := by
  have hSheet : IsBare "css" "cssx/" := ⟨by decide, by decide, by decide⟩
  have hAsset : IsBare "assets" "css/a.png" := ⟨by decide, by decide, by decide⟩
  have hEnabled : slashedOptions.enabled = true := rfl
  obtain ⟨-, hSheets⟩ := (spellings_agree hEnabled "cssx/").1 hSheet
  obtain ⟨-, hAssets⟩ := (spellings_agree hEnabled "css/a.png").2 hAsset
  refine ⟨hEnabled, hSheet, hAsset, fun spelling hSpelling => ?_, fun spelling hSpelling => ?_⟩
  · obtain ⟨hLocation, hAddress⟩ := hSheets spelling hSpelling
    exact ⟨hLocation.trans (by decide +kernel), hAddress.trans (by decide +kernel)⟩
  · obtain ⟨hLocation, hAddress⟩ := hAssets spelling hSpelling
    exact ⟨hLocation.trans (by decide +kernel), hAddress.trans (by decide +kernel)⟩

end PagePress.Route
