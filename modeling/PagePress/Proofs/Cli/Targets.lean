import PagePress.Proofs.Cli.Storing
import PagePress.Proofs.Publication.Climbing
import PagePress.Cli.Run

/-!
# Where documents lie and where their files go

A site document is known by the end of its name, and every published file has a name that ends in
another way. So nothing that is published takes the place of a document, and each document is read
as it was before, however many others were published in between. Its files go below the output
folder, and when a whole folder of documents is published they go to a folder there that has the
name of the document.

## Main results

* `target_join` — the target of a file is made of the output folder, the name of its document and
  its own path.
* `exists_root_of_resolve` — a target leads to the output folder and on from there.
* `KeepsDocuments.read` — a document is read as it was.
-/

namespace PagePress

namespace Text

/-- The pieces of a text without the separators at its start are the last pieces of the text. -/
theorem cut_dropWhile_suffix (separator : Char) (cs : List Char) :
    cut separator (cs.dropWhile (· = separator)) <:+ cut separator cs := by
  induction cs with
  | nil => exact List.suffix_rfl
  | cons c cs ih =>
      rw [List.dropWhile_cons]
      split
      · rename_i hSeparator
        rw [cut, if_pos (of_decide_eq_true hSeparator)]
        exact ih.trans (List.suffix_cons _ _)
      · exact List.suffix_rfl

theorem cutText_of_not_mem {separator : Char} {text : String} (h : separator ∉ text.toList) :
    cutText separator text = [text] := by
  rw [cutText, cut_of_not_mem h, List.map_singleton, String.ofList_toList]

theorem cutText_append (separator : Char) (a b : String) :
    cutText separator (a ++ String.singleton separator ++ b) =
      cutText separator a ++ cutText separator b := by
  simp [cutText, String.toList_append, cut_append]

theorem cutText_inj (separator : Char) {a b : String}
    (h : cutText separator a = cutText separator b) : a = b := by
  have hPieces : cut separator a.toList = cut separator b.toList :=
    List.map_injective_iff.2 (fun _ _ => String.ofList_inj.1) h
  rw [← String.toList_inj, ← intercalate_cut separator a.toList, hPieces, intercalate_cut]

end Text

/-! ## Names of documents -/

namespace FilePath

variable {path stem : String}

theorem getLast?_dropIdleEnd {segments : List (List Char)} {segment : List Char}
    (h : segments.getLast? = some segment) (hIdle : isIdle segment = false) :
    (dropIdleEnd segments).getLast? = some segment := by
  obtain ⟨above, rfl⟩ := List.getLast?_eq_some_iff.1 h
  rw [dropIdleEnd, List.reverse_concat, List.dropWhile_cons_of_neg (by simp [hIdle]),
    ← List.reverse_concat, List.reverse_reverse, List.getLast?_concat]

/-- The last segment of a path is its last piece, unless that is idle. -/
theorem getLast?_segments {segment : List Char}
    (h : (Text.cut '/' path.toList).getLast? = some segment) (hIdle : isIdle segment = false) :
    (parts path).segments.getLast? = some segment := by
  have hCons : ∀ first cs, (first :: Text.cut '/' cs).getLast? = some segment →
      (Text.cut '/' cs).getLast? = some segment := by
    intro first cs hLast
    obtain ⟨piece, pieces, hCut⟩ := List.exists_cons_of_ne_nil (Text.cut_ne_nil '/' cs)
    rwa [hCut, List.getLast?_cons_cons, ← hCut] at hLast
  refine getLast?_dropIdleEnd ?_ hIdle
  show (Text.cut '/' (splitHead path.toList).2).getLast? = some segment
  revert h
  generalize path.toList = cs
  unfold splitHead
  split
  · rename_i rest
    rw [Text.cut, if_pos rfl]
    exact hCons [] rest
  · rintro ⟨⟩
    cases hIdle
  · rename_i rest
    have hDot : Text.cut '/' ('.' :: '/' :: rest) = ['.'] :: Text.cut '/' rest := by
      simp [Text.cut]
    intro h
    rw [hDot] at h
    obtain ⟨piece, pieces, hCut⟩ := List.exists_cons_of_ne_nil (Text.cut_ne_nil '/' rest)
    have hLast := hCons ['.'] rest h
    rw [hCut] at hLast
    rw [Text.cut, if_pos rfl, hCut, List.getLast?_cons_cons, hLast]
  · exact id

/-- The file of a document has the name of the document with the extension behind it. -/
theorem fileName?_of_siteStem? (h : siteStem? path = some stem) :
    fileName? path = some (stem ++ siteExtension) := by
  obtain ⟨name, hName, hStem⟩ := Option.bind_eq_some_iff.1 h
  obtain ⟨rest, hRest, rfl⟩ := Option.map_eq_some_iff.1 hStem
  rw [hName, ← String.ofList_toList (s := name), ← List.reverse_reverse name.toList,
    Route.after?_eq_some hRest]
  simp [String.ofList_append]

theorem slash_not_mem_siteStem? (h : siteStem? path = some stem) : '/' ∉ stem.toList := by
  have hName := fileName?_of_siteStem? h
  unfold fileName? at hName
  split at hName
  · cases hName
  · rename_i segment _ hLast
    have hMem : segment ∈ Text.cut '/' (splitHead path.toList).2 := by
      have hKept : segment ∈ dropIdleEnd (Text.cut '/' (splitHead path.toList).2) :=
        List.mem_of_getLast? hLast
      rw [dropIdleEnd, List.mem_reverse] at hKept
      exact List.mem_reverse.1 ((List.dropWhile_suffix _).subset hKept)
    have hSegment : segment = stem.toList ++ siteExtension.toList := by
      rw [← String.toList_append, ← Option.some.inj hName, String.toList_ofList]
    rw [hSegment] at hMem
    exact fun hSlash => Text.separator_not_mem_cut '/' _ _ hMem (List.mem_append_left _ hSlash)
  · cases hName

end FilePath

open FilePath

/-! ## Targets -/

namespace Cli

/-- A folder up to the slash behind it. -/
def folderPrefix (out : String) : String :=
  if out.isEmpty || out.toList.getLast? = some '/' then out else out ++ "/"

/-- A published path without the slashes at its start. -/
def belowRoot (path : String) : String :=
  String.ofList (path.toList.dropWhile (· = '/'))

theorem join_eq_append {out next : String} (h : isAbsolute next = false) :
    join out next = folderPrefix out ++ next := by
  unfold join folderPrefix
  rw [if_neg (by rw [h]; decide)]
  split <;> rfl

theorem isAbsolute_belowRoot (path : String) : isAbsolute (belowRoot path) = false := by
  rw [isAbsolute, belowRoot, String.toList_ofList, decide_eq_false_iff_not]
  intro hHead
  have hSlash := List.head?_dropWhile_not (fun c : Char => decide (c = '/')) path.toList
  rw [hHead] at hSlash
  exact absurd hSlash (by decide)

theorem target_eq (out path : String) : target out path = folderPrefix out ++ belowRoot path :=
  join_eq_append (isAbsolute_belowRoot path)

/-- A folder ends with a slash, or it is the working folder. -/
theorem folderPrefix_cases (out : String) :
    folderPrefix out = "" ∧ out = "" ∨
      ∃ above, folderPrefix out = above ++ "/" ∧
        (out ≠ "" ∧ out = above ∨ out = above ++ "/") := by
  by_cases hEmpty : out = ""
  · subst hEmpty
    exact .inl ⟨rfl, rfl⟩
  · by_cases hSlash : out.toList.getLast? = some '/'
    · obtain ⟨above, hAbove⟩ := List.getLast?_eq_some_iff.1 hSlash
      have hOut : out = String.ofList above ++ "/" := by
        rw [← String.toList_inj, hAbove]
        simp [String.toList_append]
      refine .inr ⟨String.ofList above, ?_, .inr hOut⟩
      rw [folderPrefix, if_pos (by simp [hSlash]), hOut]
    · refine .inr ⟨out, ?_, .inl ⟨hEmpty, rfl⟩⟩
      rw [folderPrefix, if_neg (by simp [hEmpty, hSlash])]

theorem folderPrefix_of_slash (above : String) : folderPrefix (above ++ "/") = above ++ "/" := by
  rw [folderPrefix, if_pos (by simp [String.toList_append])]

/-- A text without a slash is a name. Of names the empty one is no folder. -/
theorem folderPrefix_join {stem : String} (hStem : '/' ∉ stem.toList) (out : String) :
    folderPrefix (join out stem) = folderPrefix out ++ folderPrefix stem := by
  have hRelative : isAbsolute stem = false := by
    rw [isAbsolute, decide_eq_false_iff_not]
    exact fun hHead => hStem (List.mem_of_head? hHead)
  rw [join_eq_append hRelative]
  by_cases hEmpty : stem = ""
  · subst hEmpty
    rw [String.append_empty, show folderPrefix "" = "" from rfl, String.append_empty]
    rcases folderPrefix_cases out with ⟨hOut, -⟩ | ⟨above, hOut, -⟩
    · rw [hOut]
      rfl
    · rw [hOut, folderPrefix_of_slash]
  · obtain ⟨front, last, hLast⟩ : ∃ front last, stem.toList = front ++ [last] :=
      ⟨_, _, (List.dropLast_concat_getLast fun h => hEmpty (String.toList_eq_nil_iff.1 h)).symm⟩
    have hSlash : last ≠ '/' := by
      rintro rfl
      exact hStem (by simp [hLast])
    have hBoth : ¬ ((folderPrefix out ++ stem).isEmpty ||
        decide ((folderPrefix out ++ stem).toList.getLast? = some '/')) = true := by
      simp [String.toList_append, hLast, hSlash, hEmpty]
    have hOwn : ¬ (stem.isEmpty || decide (stem.toList.getLast? = some '/')) = true := by
      simp [hLast, hSlash, hEmpty]
    rw [folderPrefix, if_neg hBoth, show folderPrefix stem = stem ++ "/" from if_neg hOwn,
      String.append_assoc]

/-- The target of a file is made of the output folder, the name of its document and its path. -/
theorem target_join {stem : String} (hStem : '/' ∉ stem.toList) (out path : String) :
    target (join out stem) path =
      folderPrefix out ++ (folderPrefix stem ++ belowRoot path) := by
  rw [target_eq, folderPrefix_join hStem, String.append_assoc]

theorem isAbsolute_folderPrefix {stem : String} (hStem : '/' ∉ stem.toList) (path : String) :
    isAbsolute (folderPrefix stem ++ belowRoot path) = false := by
  by_cases hEmpty : stem = ""
  · subst hEmpty
    rw [show folderPrefix "" = "" from rfl, String.empty_append, isAbsolute_belowRoot]
  · obtain ⟨c, cs, hCons⟩ : ∃ c cs, stem.toList = c :: cs :=
      List.exists_cons_of_ne_nil fun h => hEmpty (String.toList_eq_nil_iff.1 h)
    have hSlash : c ≠ '/' := by
      rintro rfl
      exact hStem (by simp [hCons])
    unfold folderPrefix
    split <;> simp [isAbsolute, String.toList_append, hCons, hSlash]

/-- The names after that of a document, which are its own when it is empty. -/
theorem cutText_folderPrefix {stem : String} (hStem : '/' ∉ stem.toList) (text : String) :
    Text.cutText '/' (folderPrefix stem ++ text) =
      (if stem = "" then [] else [stem]) ++ Text.cutText '/' text := by
  by_cases hEmpty : stem = ""
  · subst hEmpty
    rw [show folderPrefix "" = "" from rfl, String.empty_append, if_pos rfl, List.nil_append]
  · have hPrefix : folderPrefix stem = stem ++ String.singleton '/' := by
      refine if_neg ?_
      simp only [Bool.or_eq_true, String.isEmpty_iff, hEmpty, decide_eq_true_eq, false_or]
      exact fun hLast => hStem (List.mem_of_getLast? hLast)
    rw [hPrefix, Text.cutText_append, if_neg hEmpty, Text.cutText_of_not_mem hStem]

namespace FileTree

variable {tree middle next : FileTree} {place root : Place} {out path content text stem : String}

/-- A path below a folder leads to the folder first and on from there. -/
theorem exists_root_of_resolve (hRelative : isAbsolute path = false)
    (h : tree.resolve (folderPrefix out ++ path) = .ok place) :
    ∃ root, tree.follow (tree.start out) (Text.cutText '/' out) = .ok root ∧
      tree.follow root (Text.cutText '/' path) = .ok place := by
  obtain ⟨⟨⟩, -, hFollow⟩ := exists_of_bind_eq_ok h
  have hStays : ∀ root, tree.follow root (Text.cutText '/' path) = .ok place →
      tree.follow root [""] = .ok root := by
    intro root hPath
    obtain ⟨name, rest, hNames⟩ := List.exists_cons_of_ne_nil fun hNil =>
      Text.cut_ne_nil '/' path.toList (List.map_eq_nil_iff.1 hNil)
    rw [Text.cutText, hNames, follow_cons] at hPath
    obtain ⟨middle, hStep, -⟩ := exists_of_bind_eq_ok hPath
    have hFolder := (step_eq_ok_iff.1 hStep).1
    rw [follow_cons, step_eq_ok_iff.2 ⟨hFolder, .inl ⟨.inl rfl, rfl⟩⟩]
    rfl
  rcases folderPrefix_cases out with ⟨hPrefix, rfl⟩ | ⟨above, hPrefix, hOut⟩
  · rw [hPrefix, String.empty_append] at hFollow
    have hStart : tree.start path = tree.start "" := by
      rw [start, start, hRelative]
      rfl
    rw [hStart] at hFollow
    exact ⟨tree.start "", hStays _ hFollow, hFollow⟩
  · have hSlash : "/" = String.singleton '/' := rfl
    have hStart : tree.start (above ++ "/" ++ path) = tree.start out := by
      have hHead : isAbsolute (above ++ "/" ++ path) = isAbsolute out := by
        rcases hOut with ⟨hEmpty, rfl⟩ | rfl
        · obtain ⟨c, cs, hCons⟩ := List.exists_cons_of_ne_nil fun hNil =>
            hEmpty (String.toList_eq_nil_iff.1 hNil)
          simp [isAbsolute, String.toList_append, hCons]
        · cases hChars : above.toList <;> simp [isAbsolute, String.toList_append, hChars]
      rw [start, start, hHead]
    rw [hPrefix, hStart, hSlash, Text.cutText_append, follow_append] at hFollow
    obtain ⟨root, hRoot, hPath⟩ := exists_of_bind_eq_ok hFollow
    refine ⟨root, ?_, hPath⟩
    rcases hOut with ⟨-, rfl⟩ | rfl
    · exact hRoot
    · have hNames : Text.cutText '/' (above ++ "/") = Text.cutText '/' above ++ [""] := by
        rw [← String.append_empty (s := above ++ "/"), hSlash, Text.cutText_append]
        rfl
      rw [hNames, follow_append, hRoot]
      exact hStays root hPath

/-! ## Documents in a tree -/

/-- A file has the name of a site document. -/
def IsDocument (place : Place) : Prop := ∃ stem, place.getLast? = some (stem ++ siteExtension)

/-- A path that names a document leads to a file that is named like one. -/
theorem isDocument_of_read (hStem : siteStem? path = some stem)
    (hRead : tree.read path = .ok text) :
    ∃ place, tree.resolve path = .ok place ∧ tree.lookup place = some (.file text) ∧
      IsDocument place := by
  obtain ⟨place, hPlace, hText⟩ := resolve_of_read hRead
  have hFile : tree.lookup place ≠ some .folder := by
    rw [hText]
    rintro ⟨⟩
  obtain ⟨name, hName, hEnd⟩ := last_of_resolve hPlace hFile
  rw [Text.cutText, List.getLast?_map] at hName
  obtain ⟨segment, hLast, rfl⟩ := Option.map_eq_some_iff.1 hName
  have hOwn := fileName?_of_siteStem? hStem
  refine ⟨place, hPlace, hText, stem, ?_⟩
  rcases hEnd with hUp | ⟨hPlain, hSame⟩
  · have hSegment : segment = ['.', '.'] := by
      rw [← String.toList_ofList (l := segment), hUp]
      rfl
    subst hSegment
    rw [fileName?, getLast?_segments hLast (by decide)] at hOwn
    cases hOwn
  · have hIdle : isIdle segment = false := by
      rw [isIdle, Bool.or_eq_false_iff, decide_eq_false_iff_not, decide_eq_false_iff_not]
      exact ⟨fun hNil => hPlain.plain.1 (hNil ▸ rfl), fun hDot => hPlain.plain.2.1 (hDot ▸ rfl)⟩
    rw [fileName?, getLast?_segments hLast hIdle] at hOwn
    rw [hSame]
    split at hOwn
    · cases hOwn
    · rename_i found _ hFound
      rwa [Option.some.inj hFound]
    · cases hOwn

/-- A path that ends like that of a published file. -/
def IsPublishedName (path : String) : Prop :=
  ∃ front, path = front ++ ".html" ∨ path = front ++ ".11tydata.js"

/-- A published file is not named like a document. -/
theorem Stores.not_isDocument (h : Stores tree path content place next)
    (hPath : IsPublishedName path) : ¬ IsDocument place := by
  rintro ⟨stem, hStem⟩
  obtain ⟨front, hFront⟩ := hPath
  have hEnd : ∀ back : String, '/' ∉ back.toList → path = front ++ back →
      ∃ piece, place.getLast? = some (String.ofList (piece ++ back.toList)) := by
    rintro back hBack rfl
    obtain ⟨pieces, piece, -, hCut⟩ := Text.cut_append_right hBack front.toList
    refine ⟨piece, ?_⟩
    rw [h.name, Text.cutText, String.toList_append, hCut, List.map_append, List.map_singleton,
      List.getLast?_concat]
  have hLast : ∀ piece back, place.getLast? = some (String.ofList (piece ++ back)) →
      (piece ++ back).getLast? = some 'n' := by
    intro piece back hPiece
    rw [← String.toList_ofList (l := piece ++ back), ← Option.some.inj (hStem.symm.trans hPiece),
      String.toList_append, List.getLast?_append]
    rfl
  rcases hFront with hHtml | hData
  · obtain ⟨piece, hPiece⟩ := hEnd _ (by decide) hHtml
    have hSame := hLast piece _ hPiece
    simp at hSame
  · obtain ⟨piece, hPiece⟩ := hEnd _ (by decide) hData
    have hSame := hLast piece _ hPiece
    simp at hSame

/-- A tree that has grown, in which all documents are as they were. -/
structure KeepsDocuments (tree next : FileTree) : Prop where
  grows : Grows tree next
  document : ∀ place, IsDocument place → ∀ text,
    (next.lookup place = some (.file text) ↔ tree.lookup place = some (.file text))

namespace KeepsDocuments

theorem refl (tree : FileTree) : KeepsDocuments tree tree := ⟨.refl tree, fun _ _ _ => Iff.rfl⟩

theorem trans {last : FileTree} (hFirst : KeepsDocuments tree next)
    (hSecond : KeepsDocuments next last) : KeepsDocuments tree last :=
  ⟨hFirst.grows.trans hSecond.grows, fun place hPlace text =>
    (hSecond.document place hPlace text).trans (hFirst.document place hPlace text)⟩

theorem of_addsFolders (h : AddsFolders tree next) : KeepsDocuments tree next :=
  ⟨h.grows, fun place _ text => h.file_iff place text⟩

theorem of_stores (h : Stores tree path content place next) (hPath : IsPublishedName path) :
    KeepsDocuments tree next := by
  refine ⟨h.grows, fun other hOther text => h.other other text ?_⟩
  rintro rfl
  exact h.not_isDocument hPath hOther

/-- Storing published files leaves all documents as they were. -/
theorem of_storesEach {files : List (String × String)} (h : StoresEach tree files next)
    (hFiles : ∀ file ∈ files, IsPublishedName file.1) : KeepsDocuments tree next := by
  induction h with
  | nil tree => exact refl tree
  | cons hFile _ ih =>
      obtain ⟨hPath, hRest⟩ := List.forall_mem_cons.1 hFiles
      rcases writeFile_cases hFile with ⟨fault, hFault, -⟩ | ⟨-, place, hStores⟩
      · cases hFault
      · exact (of_stores hStores hPath).trans (ih hRest)

/-- A document is read as it was. -/
theorem read (h : KeepsDocuments tree next) (hStem : siteStem? path = some stem)
    (hRead : tree.read path = .ok text) : next.read path = .ok text := by
  obtain ⟨place, hPlace, hText, hDocument⟩ := isDocument_of_read hStem hRead
  exact read_of_resolve (resolve_of_grows h.grows hPlace)
    ((h.document place hDocument text).2 hText)

end KeepsDocuments

end FileTree

/-! ## Published names -/

/-- A published file goes to a path that ends like its own. -/
theorem isPublishedName_target {options : Options} {file : PublishedFile}
    (h : Assembly.IsPageFile options file) (out : String) :
    FileTree.IsPublishedName (target out file.path) := by
  have hEnd : ∀ front back : String, back.toList.head? = some '.' → ∃ rest,
      target out (front ++ back) = rest ++ back := by
    intro front back hDot
    obtain ⟨cs, hBack⟩ := List.head?_eq_some_iff.1 hDot
    have hDrop : back.toList.dropWhile (· = '/') = back.toList := by
      rw [hBack]
      rfl
    refine ⟨folderPrefix out ++ belowRoot front, ?_⟩
    rw [target_eq, String.append_assoc, String.append_right_inj, belowRoot, String.toList_append,
      List.dropWhile_append]
    split
    · rename_i hNil
      rw [hDrop, String.ofList_toList, belowRoot, List.isEmpty_iff.1 hNil]
      exact String.empty_append.symm
    · rw [String.ofList_append, String.ofList_toList]
      rfl
  cases h with
  | template name hPath _ =>
      obtain ⟨rest, hRest⟩ := hEnd (Route.templateFolder options ++ name) ".html" (by decide)
      exact ⟨rest, .inl (hPath ▸ hRest)⟩
  | sidecar name hPath _ =>
      obtain ⟨rest, hRest⟩ := hEnd (Route.templateFolder options ++ name) ".11tydata.js" (by decide)
      exact ⟨rest, .inr (hPath ▸ hRest)⟩

end Cli

end PagePress
