import Mathlib.Data.List.Perm.Basic
import PagePress.Proofs.Publication.PageFiles

/-!
# Files in stock

While pages are assembled, the files of those already done and of those still to come lie in one
list, and a page finds its file by path. Pages may share a path, so which of its files a page finds
is not clear. But each page that is still to come has put one file into the list at its path, and
takes one out at that path. So the list has the paths of the pages to come and of what the others
became, in some order.

## Main results

* `assemblePage_run` — one page keeps the stock, unless it does not know a data source.
* `assemble_run` — what a whole assembly leaves, and the one error that ends it.
-/

namespace PagePress.Assembly

variable {host : Host} {options : Options} {context : Context}

/-! ## What becomes of a page -/

/-- The names under which a page is published, when its front matter compiles. -/
def publishedNames (options : Options) (context : Context) (page : Page) : List String :=
  match headerFault? options context page with
  | none => fileNames page
  | some _ => []

/-- The paths that a page is published at, when its front matter compiles. -/
def publishedPaths (host : Host) (options : Options) (context : Context) (page : Page) :
    List String :=
  (publishedNames options context page).flatMap (filePaths options (hasData host page))

/-- The notice of a page that was left out for its front matter. -/
def headerNotices (options : Options) (context : Context) (page : Page) : List Notice :=
  ((headerFault? options context page).map (.pageDropped page.name)).toList

/-! ## Assembling a page at its place -/

theorem pageFiles_follows (host : Host) (options : Options) (page : Page) (file : PublishedFile)
    (context : Context) :
    ((pageFiles host options page file).runIn context).2.Follows context := by
  have hSame : AlikeFile (Pairing.ofContexts context context) False 0 file file :=
    ⟨rfl, rfl, False.elim⟩
  exact Pairing.InStep.follows (inStep_pageFiles host page False.elim hSame)

theorem assembleAt_context (host : Host) (options : Options) (page : Page) (place : Nat)
    (file : PublishedFile) (draft : Draft) :
    (assembleAt host options page place file draft).2.context =
      ((pageFiles host options page file).runIn draft.context).2 := by
  unfold assembleAt
  rcases (pageFiles host options page file).runIn draft.context with ⟨error | files, after⟩
  · cases hLocal : error.isPageLocal <;> simp [hLocal]
  · rfl

variable {page : Page} {place : Nat} {file : PublishedFile} {draft : Draft}

/-- A data source that is not known ends the assembly. -/
theorem assembleAt_of_unknown (hDraft : draft.context.Follows context) {id : String}
    (hUnknown : unknownSource? host page = some id) :
    (assembleAt host options page place file draft).1 = some (.unknownDataSource id) := by
  have hFault := pageFiles_fault? host options hDraft page file
  rw [assemblyFault?, hUnknown, Option.map_some, Option.some_or] at hFault
  obtain ⟨next, hRun⟩ := Pass.fault?_eq_some hFault
  simp [assembleAt, hRun, PublishError.isPageLocal]

/-- A page whose front matter does not compile is taken out. -/
theorem assembleAt_of_header (place : Nat) (file : PublishedFile)
    (hDraft : draft.context.Follows context)
    (hKnown : unknownSource? host page = none) {error : PublishError}
    (hHeader : headerFault? options context page = some error) :
    ∃ next, assembleAt host options page place file draft = (none, {
        context := next
        files := draft.files.eraseIdx place
        notices := draft.notices ++ headerNotices options context page }) ∧
      next.Follows draft.context := by
  have hFault := pageFiles_fault? host options hDraft page file
  have hFollows := pageFiles_follows host options page file draft.context
  rw [assemblyFault?, hKnown, Option.map_none, Option.none_or, hHeader] at hFault
  obtain ⟨next, hRun⟩ := Pass.fault?_eq_some hFault
  rw [hRun] at hFollows
  refine ⟨next, ?_, hFollows⟩
  simp only [assembleAt, hRun, headerFault?_isPageLocal hHeader, headerNotices, hHeader,
    ↓reduceIte, Option.map_some, Option.toList_some]

/-- The files of any other page take its place. -/
theorem assembleAt_of_compiles (place : Nat) (file : PublishedFile)
    (hDraft : draft.context.Follows context)
    (hKnown : unknownSource? host page = none)
    (hHeader : headerFault? options context page = none) :
    ∃ files next, (pageFiles host options page file).runIn draft.context = (.ok files, next) ∧
      assembleAt host options page place file draft = (none, {
        draft with context := next, files := placeFiles draft.files place files }) ∧
      next.Follows draft.context := by
  have hFault := pageFiles_fault? host options hDraft page file
  have hFollows := pageFiles_follows host options page file draft.context
  rw [assemblyFault?, hKnown, Option.map_none, Option.none_or, hHeader] at hFault
  obtain ⟨files, next, hRun⟩ := Pass.fault?_eq_none hFault
  rw [hRun] at hFollows
  exact ⟨files, next, hRun, by simp only [assembleAt, hRun], hFollows⟩

/-! ## Places -/

theorem findFile?_of_mem {path : String} {files : List PublishedFile}
    (h : path ∈ files.map PublishedFile.path) : ∃ place file,
      findFile? path files = some (place, file) ∧ files[place]? = some file ∧ file.path = path := by
  induction files with
  | nil => simp at h
  | cons first rest ih =>
      by_cases hFirst : first.path = path
      · exact ⟨0, first, by simp [findFile?, hFirst], rfl, hFirst⟩
      · have hRest : path ∈ rest.map PublishedFile.path := by
          rcases List.mem_cons.1 h with hEq | hMem
          · exact absurd hEq.symm hFirst
          · exact hMem
        obtain ⟨place, file, hFind, hAt, hPath⟩ := ih hRest
        exact ⟨place + 1, file, by simp [findFile?, hFirst, hFind], by simpa using hAt, hPath⟩

/-- Taking a file from its place leaves the others. -/
theorem perm_cons_eraseIdx {files : List PublishedFile} (hAt : files[place]? = some file) :
    files.Perm (file :: files.eraseIdx place) := by
  obtain ⟨hLength, hFile⟩ := List.getElem?_eq_some_iff.1 hAt
  rw [← hFile]
  exact (List.getElem_cons_eraseIdx_perm hLength).symm

/-- Files in place of another one are added to all the others. -/
theorem placeFiles_perm {files new : List PublishedFile} (hAt : files[place]? = some file)
    (hNew : new ≠ []) : (placeFiles files place new).Perm (files.eraseIdx place ++ new) := by
  obtain ⟨hLength, -⟩ := List.getElem?_eq_some_iff.1 hAt
  cases new with
  | nil => exact absurd rfl hNew
  | cons first rest =>
      calc files.set place first ++ rest
        _ |>.Perm (first :: files.eraseIdx place ++ rest) :=
          (List.set_perm_cons_eraseIdx hLength first).append_right rest
        _ |>.Perm (files.eraseIdx place ++ first :: rest) := List.perm_middle.symm

/-! ## The stock -/

/-- The files during an assembly: one at the path of each page to come, and those at the paths of
what is done. What lies at the path of a template is one. -/
structure Stock (options : Options) (pages : List Page) (done : List String)
    (files : List PublishedFile) : Prop where
  paths : (files.map PublishedFile.path).Perm
    (pages.map (fun page => pagePath options (pageSlug page.name)) ++ done)
  typed : ∀ file ∈ files, IsTypedByPath options file

variable {pages : List Page} {done : List String} {files : List PublishedFile}

/-- The page that comes next finds a template at its path. -/
theorem Stock.find (h : Stock options (page :: pages) done files) : ∃ place file,
    findFile? (pagePath options (pageSlug page.name)) files = some (place, file) ∧
      files[place]? = some file ∧ file.path = pagePath options (pageSlug page.name) ∧
      file.type = .html := by
  have hMem : pagePath options (pageSlug page.name) ∈ files.map PublishedFile.path :=
    h.paths.mem_iff.2 (by simp)
  obtain ⟨place, file, hFind, hAt, hPath⟩ := findFile?_of_mem hMem
  have hTyped := h.typed file (List.mem_of_getElem? hAt)
  exact ⟨place, file, hFind, hAt, hPath, hTyped _ (hPath.trans (pagePath_eq options _))⟩

theorem Stock.erase (h : Stock options (page :: pages) done files)
    (hAt : files[place]? = some file) (hPath : file.path = pagePath options (pageSlug page.name)) :
    Stock options pages done (files.eraseIdx place) := by
  refine ⟨?_, fun other hm => h.typed other (List.mem_of_mem_eraseIdx hm)⟩
  have hFiles := ((perm_cons_eraseIdx hAt).map PublishedFile.path).symm.trans h.paths
  rw [List.map_cons, hPath, List.map_cons, List.cons_append] at hFiles
  exact hFiles.cons_inv

theorem Stock.placeFiles (h : Stock options pages done (files.eraseIdx place))
    (hAt : files[place]? = some file) {paths : List String} {new : List PublishedFile}
    (hNew : LieAt options paths new) (hSome : paths ≠ []) :
    Stock options pages (done ++ paths) (Assembly.placeFiles files place new) := by
  have hNonempty : new ≠ [] := by
    intro hNil
    rw [hNil] at hNew
    exact hSome hNew.paths.symm
  have hPlaced := placeFiles_perm hAt hNonempty
  constructor
  · rw [← List.append_assoc, ← hNew.paths]
    refine (hPlaced.map PublishedFile.path).trans ?_
    rw [List.map_append]
    exact h.paths.append_right _
  · intro other hm
    rcases List.mem_append.1 (hPlaced.mem_iff.1 hm) with hOld | hm
    · exact h.typed other hOld
    · exact hNew.typed other hm

/-! ## Runs -/

theorem outputPaths_ne_nil (host : Host) (options : Options) (page : Page) :
    outputPaths host options page ≠ [] := by
  unfold outputPaths fileNames
  cases page.settings.languages with
  | nil => simp [filePaths]
  | cons lang langs => simp [filePaths]

/-- A page whose data sources are known leaves its paths, or a notice. -/
theorem assemblePage_run (hStock : Stock options (page :: pages) done draft.files)
    (hDraft : draft.context.Follows context) (hKnown : unknownSource? host page = none) :
    ∃ next, assemblePage host options page draft = (none, next) ∧
      next.context.Follows context ∧
      Stock options pages (done ++ publishedPaths host options context page) next.files ∧
      next.notices = draft.notices ++ headerNotices options context page := by
  obtain ⟨place, file, hFind, hAt, hPath, hType⟩ := hStock.find
  have hErased := hStock.erase hAt hPath
  have hPage : assemblePage host options page draft =
      assembleAt host options page place file draft := by
    simp only [assemblePage, hFind, hType, ↓reduceIte]
  rw [hPage]
  cases hHeader : headerFault? options context page with
  | some error =>
      obtain ⟨next, hRun, hNext⟩ :=
        assembleAt_of_header place file hDraft hKnown hHeader
      have hPaths : publishedPaths host options context page = [] := by
        simp [publishedPaths, publishedNames, hHeader]
      refine ⟨_, hRun, hNext.trans hDraft, ?_, rfl⟩
      rw [hPaths, List.append_nil]
      exact hErased
  | none =>
      obtain ⟨new, next, hFiles, hRun, hNext⟩ :=
        assembleAt_of_compiles place file hDraft hKnown hHeader
      have hNew := pageFiles_returns host (hPath.trans (pagePath_eq options _)) hType _ _ _ hFiles
      have hPaths : publishedPaths host options context page = outputPaths host options page := by
        simp [publishedPaths, publishedNames, hHeader, outputPaths]
      refine ⟨_, hRun, hNext.trans hDraft, ?_, ?_⟩
      · rw [hPaths]
        exact hErased.placeFiles hAt hNew (outputPaths_ne_nil host options page)
      · simp [headerNotices, hHeader]

theorem assemblePage_of_unknown (hStock : Stock options (page :: pages) done draft.files)
    (hDraft : draft.context.Follows context) {id : String}
    (hUnknown : unknownSource? host page = some id) :
    (assemblePage host options page draft).1 = some (.unknownDataSource id) := by
  obtain ⟨place, file, hFind, -, -, hType⟩ := hStock.find
  simp only [assemblePage, hFind, hType, ↓reduceIte]
  exact assembleAt_of_unknown hDraft hUnknown

/-- An assembly ends early at the first page with a data source that is not known. -/
theorem assemble_error (pages : List Page) : ∀ done draft, Stock options pages done draft.files →
    draft.context.Follows context →
      (assemble host options pages draft).1 =
        (pages.findSome? (unknownSource? host)).map PublishError.unknownDataSource := by
  induction pages with
  | nil => exact fun done draft _ _ => rfl
  | cons page pages ih =>
      intro done draft hStock hDraft
      rw [assemble, List.findSome?_cons]
      cases hUnknown : unknownSource? host page with
      | some id =>
          have hError := assemblePage_of_unknown hStock hDraft hUnknown
          cases hRun : assemblePage host options page draft with
          | mk error next =>
              rw [hRun] at hError
              obtain rfl : error = _ := hError
              rfl
      | none =>
          obtain ⟨next, hRun, hNext, hStock', -⟩ := assemblePage_run hStock hDraft hUnknown
          rw [hRun]
          exact ih _ next hStock' hNext

/-- When no data source is missing, an assembly leaves the files of every page whose front matter
compiles, and a notice of every other one. -/
theorem assemble_run (pages : List Page) : ∀ done draft, Stock options pages done draft.files →
    draft.context.Follows context → (∀ page ∈ pages, unknownSource? host page = none) →
      ∃ final, assemble host options pages draft = (none, final) ∧
        Stock options [] (done ++ pages.flatMap (publishedPaths host options context)) final.files ∧
        final.notices = draft.notices ++ pages.flatMap (headerNotices options context) := by
  induction pages with
  | nil => exact fun done draft hStock _ _ => ⟨draft, rfl, by simpa using hStock, by simp⟩
  | cons page pages ih =>
      intro done draft hStock hDraft hKnown
      obtain ⟨next, hRun, hNext, hStock', hNotices⟩ :=
        assemblePage_run hStock hDraft (hKnown page List.mem_cons_self)
      obtain ⟨final, hFinal, hPaths, hAll⟩ := ih _ next hStock' hNext
        fun other hm => hKnown other (List.mem_cons_of_mem _ hm)
      refine ⟨final, by rw [assemble, hRun]; exact hFinal, ?_, ?_⟩
      · rw [List.flatMap_cons, ← List.append_assoc]
        exact hPaths
      · rw [hAll, hNotices, List.flatMap_cons, List.append_assoc]

end PagePress.Assembly
