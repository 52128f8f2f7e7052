import PagePress.Proofs.Publication.Locality

/-!
# What an assembly leaves alone

A page may find no file, find one that is no template, or find its template. In the last case the
template is replaced, taken out, or left where it is because the assembly ends. So whatever a page
does it touches one file, the first with its path, and adds files behind all others. Everything said
here about whole assemblies follows from these five cases.

Only cache busters draw numbers before a data source turns out to be missing, so without random ones
a page that ends an assembly leaves no trace.

## Main results

* `assemblePage_step` — the five cases of one page.
* `assemble_invariant` — what every page keeps an assembly keeps.
* `assemble_filter_sublist` — files that no page finds stay, in their order.
* `assemble_stops` — an assembly that ends early leaves what the pages before had left.
* `assemble_frame` — both, and that an assembly may be done in two goes.
-/

namespace PagePress

open Assembly
open Pass (Keeps)

variable {host : Host} {options : Options} {page : Page} {pages : List Page}
  {file : PublishedFile} {context next : Context} {draft after final : Draft}

/-! ## Data files without random numbers -/

theorem DataFile.fetchSource_keeps {ε : Type} (hBuster : options.cacheBuster ≠ .random)
    (source : DataSource) (query : String) :
    Keeps (DataFile.fetchSource (ε := ε) options source query) := by
  have hNumber : Keeps (DataFile.busterNumber? (ε := ε) options.cacheBuster) := by
    cases hKind : options.cacheBuster with
    | none => exact fun _ => rfl
    | random => exact absurd hKind hBuster
    | build => exact fun _ => rfl
  unfold DataFile.fetchSource
  cases source.kind with
  | other => exact .pure ""
  | graphql =>
      refine Keeps.bind (hNumber.bind fun number => ?_) fun url => .pure _
      cases number with
      | none => exact .pure _
      | some number => exact .pure _

theorem DataFile.fetchAll_keeps (hBuster : options.cacheBuster ≠ .random)
    (dataSource : String → Option DataSource) (entries : List (String × String)) :
    Keeps (DataFile.fetchAll options dataSource entries) := by
  induction entries with
  | nil => exact .pure []
  | cons entry entries ih =>
      obtain ⟨id, query⟩ := entry
      unfold DataFile.fetchAll
      cases dataSource id with
      | none => exact .throw _
      | some source =>
          exact (DataFile.fetchSource_keeps hBuster source query).bind fun _ =>
            ih.bind fun _ => .pure _

theorem Assembly.pageDataFile?_keeps (host : Host) (hBuster : options.cacheBuster ≠ .random)
    (page : Page) : Keeps (pageDataFile? host options page) := by
  unfold pageDataFile? dataFile
  cases hEmpty : (pageQuery host page).isEmpty with
  | true =>
      simp only [hEmpty, ↓reduceIte]
      exact .pure none
  | false =>
      simp only [hEmpty, Bool.false_eq_true, ↓reduceIte]
      exact ((DataFile.fetchAll_keeps hBuster _ _).bind fun _ => .pure _).bind fun _ => .pure _

/-- A page ends an assembly while its data file is made, before anything else is done. -/
theorem Assembly.pageFiles_stops (hBuster : options.cacheBuster ≠ .random) {error : PublishError}
    (hRun : (pageFiles host options page file).runIn context = (.error error, next))
    (hEnds : error.isPageLocal = false) : next = context := by
  have hFault := pageFiles_fault? host options (.refl context) page file
  rw [Pass.fault?_of_error hRun, assemblyFault?] at hFault
  have hData := pageDataFile?_fault? host options page context
  cases hUnknown : unknownSource? host page with
  | none =>
      rw [hUnknown, Option.map_none, Option.none_or] at hFault
      rw [headerFault?_isPageLocal hFault.symm] at hEnds
      cases hEnds
  | some id =>
      rw [hUnknown] at hData
      obtain ⟨between, hRunData⟩ := Pass.fault?_eq_some hData
      have hKeeps := pageDataFile?_keeps host hBuster page context
      rw [pageFiles, Pass.runIn_bind_of_error hRunData] at hRun
      rw [hRunData] at hKeeps
      cases hRun
      exact hKeeps

/-! ## One page -/

/-- The first file at the path of a page is a template, between two groups of files. -/
structure Found (options : Options) (page : Page) (files firsts : List PublishedFile)
    (file : PublishedFile) (others : List PublishedFile) : Prop where
  files_eq : files = firsts ++ file :: others
  apart : ∀ other ∈ firsts, other.path ≠ pagePath options (pageSlug page.name)
  path : file.path = pagePath options (pageSlug page.name)
  html : file.type = .html

/-- What one page does to a draft, with its error when the assembly ends there. -/
inductive PageStep (host : Host) (options : Options) (page : Page) (draft : Draft) :
    Option PublishError → Draft → Prop
  | missing (hMissing : ∀ file ∈ draft.files,
        file.path ≠ pagePath options (pageSlug page.name)) :
      PageStep host options page draft
        (some (.missingPageFile (pagePath options (pageSlug page.name)))) draft
  | notHtml {file : PublishedFile} (hFile : file ∈ draft.files)
      (hPath : file.path = pagePath options (pageSlug page.name)) (hType : file.type ≠ .html) :
      PageStep host options page draft
        (some (.notHtml (pagePath options (pageSlug page.name)))) draft
  | stopped {firsts others : List PublishedFile} {file : PublishedFile} {error : PublishError}
      {next : Context} (hFound : Found options page draft.files firsts file others)
      (hRun : (pageFiles host options page file).runIn draft.context = (.error error, next))
      (hEnds : error.isPageLocal = false) :
      PageStep host options page draft (some error) { draft with context := next }
  | dropped {firsts others : List PublishedFile} {file : PublishedFile} {error : PublishError}
      {next : Context} (hFound : Found options page draft.files firsts file others)
      (hRun : (pageFiles host options page file).runIn draft.context = (.error error, next))
      (hLocal : error.isPageLocal = true) :
      PageStep host options page draft none {
        context := next
        files := firsts ++ others
        notices := draft.notices ++ [.pageDropped page.name error] }
  | placed {firsts others : List PublishedFile} {file first : PublishedFile}
      {rest : List PublishedFile} {next : Context}
      (hFound : Found options page draft.files firsts file others)
      (hRun : (pageFiles host options page file).runIn draft.context =
        (.ok (first :: rest), next)) :
      PageStep host options page draft none
        { draft with context := next, files := firsts ++ first :: others ++ rest }

/-- A path that some file has splits the files at the first one that has it. -/
theorem exists_split_of_mem {path : String} {files : List PublishedFile}
    (h : path ∈ files.map PublishedFile.path) : ∃ firsts file others,
      files = firsts ++ file :: others ∧ file.path = path ∧
        ∀ other ∈ firsts, other.path ≠ path := by
  obtain ⟨some, hSome, hPath⟩ := List.mem_map.1 h
  have hThere : (files.find? fun file => file.path = path).isSome = true :=
    List.find?_isSome.2 ⟨some, hSome, decide_eq_true hPath⟩
  obtain ⟨file, hFind⟩ := Option.isSome_iff_exists.1 hThere
  obtain ⟨hFile, firsts, others, hFiles, hFirsts⟩ := List.find?_eq_some_iff_append.1 hFind
  exact ⟨firsts, file, others, hFiles, of_decide_eq_true hFile,
    fun other hm => by simpa using hFirsts other hm⟩

theorem Assembly.findFile?_eq_none {path : String} {files : List PublishedFile}
    (h : ∀ file ∈ files, file.path ≠ path) : findFile? path files = none := by
  induction files with
  | nil => rfl
  | cons head tail ih =>
      obtain ⟨hHead, hTail⟩ := List.forall_mem_cons.1 h
      rw [findFile?, if_neg hHead, ih hTail]
      rfl

/-- A page that finds its template is assembled at its place. -/
theorem Found.step {firsts others : List PublishedFile}
    (hFound : Found options page draft.files firsts file others) :
    PageStep host options page draft (assemblePage host options page draft).1
      (assemblePage host options page draft).2 := by
  rw [assemblePage_eq_assembleAt hFound.files_eq hFound.path hFound.html hFound.apart, assembleAt]
  rcases hRun : (pageFiles host options page file).runIn draft.context with ⟨error | new, next⟩
  · cases hLocal : error.isPageLocal with
    | true =>
        have hErased : draft.files.eraseIdx firsts.length = firsts ++ others := by
          simp [hFound.files_eq, List.eraseIdx_append_of_length_le]
        simp only [hLocal, ↓reduceIte, hErased]
        exact .dropped hFound hRun hLocal
    | false =>
        simp only [hLocal, Bool.false_eq_true, ↓reduceIte]
        exact .stopped hFound hRun hLocal
  · have hLie := pageFiles_returns host (hFound.path.trans (pagePath_eq options _)) hFound.html
      _ _ _ hRun
    cases new with
    | nil => exact absurd hLie.paths.symm (outputPaths_ne_nil host options page)
    | cons first rest =>
        have hPlaced : placeFiles draft.files firsts.length (first :: rest) =
            firsts ++ first :: others ++ rest := by
          simp [hFound.files_eq, placeFiles]
        simp only [hPlaced]
        exact .placed hFound hRun

/-- One page does one of the five things. -/
theorem assemblePage_step (host : Host) (options : Options) (page : Page) (draft : Draft) :
    PageStep host options page draft (assemblePage host options page draft).1
      (assemblePage host options page draft).2 := by
  by_cases hMem : pagePath options (pageSlug page.name) ∈ draft.files.map PublishedFile.path
  · obtain ⟨firsts, file, others, hFiles, hPath, hFirsts⟩ := exists_split_of_mem hMem
    by_cases hType : file.type = .html
    · exact Found.step ⟨hFiles, hFirsts, hPath, hType⟩
    · have hFile : file ∈ draft.files := by
        rw [hFiles]
        exact List.mem_append_right _ List.mem_cons_self
      have hFind : findFile? (pagePath options (pageSlug page.name)) draft.files =
          some (firsts.length, file) := by
        rw [hFiles]
        exact findFile?_append hFirsts hPath
      simp only [assemblePage, hFind, hType, ↓reduceIte]
      exact .notHtml hFile hPath hType
  · have hMissing : ∀ file ∈ draft.files, file.path ≠ pagePath options (pageSlug page.name) :=
      fun file hm hEq => hMem (hEq ▸ List.mem_map_of_mem hm)
    simp only [assemblePage, findFile?_eq_none hMissing]
    exact .missing hMissing

/-- What each of some pages keeps, an assembly of them keeps, whether it ends early or not. -/
theorem assemble_invariant (invariant : Draft → Prop) {pages : List Page}
    (hStep : ∀ page ∈ pages, ∀ {draft outcome after},
      PageStep host options page draft outcome after → invariant draft → invariant after) :
    ∀ draft, invariant draft → invariant (assemble host options pages draft).2 := by
  induction pages with
  | nil => exact fun draft hDraft => hDraft
  | cons page pages ih =>
      intro draft hDraft
      have hNext := hStep page List.mem_cons_self (assemblePage_step host options page draft) hDraft
      rw [assemble]
      rcases hPage : assemblePage host options page draft with ⟨_ | error, next⟩
      · rw [hPage] at hNext
        exact ih (fun other hm => hStep other (List.mem_cons_of_mem _ hm)) next hNext
      · rw [hPage] at hNext
        exact hNext

/-! ## What stays -/

/-- Of files that do not have the path of a page, none is lost and all keep their order. -/
theorem PageStep.filter_sublist {outcome : Option PublishError} {kept : PublishedFile → Bool}
    (h : PageStep host options page draft outcome after)
    (hKept : ∀ file, file.path = pagePath options (pageSlug page.name) → kept file = false) :
    (draft.files.filter kept).Sublist (after.files.filter kept) := by
  have hWithout : ∀ {firsts file others}, Found options page draft.files firsts file others →
      draft.files.filter kept = (firsts ++ others).filter kept := by
    intro firsts file others hFound
    have hFile : ¬ kept file = true := by simp [hKept file hFound.path]
    rw [hFound.files_eq, List.filter_append, List.filter_cons_of_neg hFile, List.filter_append]
  cases h with
  | missing | notHtml | stopped => exact .refl _
  | dropped hFound =>
      rw [hWithout hFound]
  | @placed firsts others file first rest next hFound =>
      rw [hWithout hFound]
      apply List.Sublist.filter
      exact ((List.sublist_cons_self first others).append_left firsts).trans
        (List.sublist_append_left _ rest)

/-- Whatever becomes of an assembly, the files that no page finds stay in their order. -/
theorem assemble_filter_sublist (host : Host) {kept : PublishedFile → Bool} {pages : List Page}
    (hKept : ∀ page ∈ pages, ∀ file : PublishedFile,
      file.path = pagePath options (pageSlug page.name) → kept file = false) (draft : Draft) :
    (draft.files.filter kept).Sublist
      ((assemble host options pages draft).2.files.filter kept) := by
  apply assemble_invariant fun now => (draft.files.filter kept).Sublist (now.files.filter kept)
  · intro page hm before outcome after hStep hBefore
    exact hBefore.trans (hStep.filter_sublist (hKept page hm))
  · exact .refl _

/-! ## Ending early -/

/-- A page that ends an assembly changes nothing, unless it has drawn random numbers. -/
theorem PageStep.eq_of_error (hBuster : options.cacheBuster ≠ .random) {error : PublishError}
    (h : PageStep host options page draft (some error) after) : after = draft := by
  cases h with
  | missing | notHtml => rfl
  | stopped hFound hRun hEnds => rw [pageFiles_stops hBuster hRun hEnds]

/-- An assembly ends early at a page, with what the pages before it left. -/
theorem assemble_stops (hBuster : options.cacheBuster ≠ .random) (pages : List Page) :
    ∀ {draft final : Draft} {error : PublishError},
      assemble host options pages draft = (some error, final) →
      ∃ before page behind, pages = before ++ page :: behind ∧
        assemble host options before draft = (none, final) ∧
        assemblePage host options page final = (some error, final) := by
  induction pages with
  | nil =>
      intro draft final error hRun
      cases hRun
  | cons page pages ih =>
      intro draft final error hRun
      rw [assemble] at hRun
      rcases hPage : assemblePage host options page draft with ⟨_ | other, next⟩
      · rw [hPage] at hRun
        obtain ⟨before, last, behind, rfl, hBefore, hLast⟩ := ih hRun
        refine ⟨page :: before, last, behind, rfl, ?_, hLast⟩
        rw [assemble, hPage]
        exact hBefore
      · rw [hPage] at hRun
        cases hRun
        have hStep := assemblePage_step host options page draft
        rw [hPage] at hStep
        obtain rfl := hStep.eq_of_error hBuster
        exact ⟨[], page, pages, rfl, rfl, hPage⟩

/-! ## Frame -/

/-- Whether a file lies at the path of none of some pages. -/
def isApart (options : Options) (pages : List Page) (file : PublishedFile) : Bool :=
  pages.all fun page => file.path ≠ pagePath options (pageSlug page.name)

/-- An assembly leaves alone what it is not about. All files at the path of no page stay as they
are and in their order, whether it ends early or not. When it does, then without random numbers it
leaves exactly what the pages before the last one had left. And assembling pages and then others,
unless the first assembly ends early, is assembling them all. -/
theorem assemble_frame (host : Host) (options : Options) (pages : List Page) (draft : Draft) :
    (draft.files.filter (isApart options pages)).Sublist
        (assemble host options pages draft).2.files ∧
      (options.cacheBuster ≠ .random → ∀ error final,
        assemble host options pages draft = (some error, final) →
        ∃ before page behind, pages = before ++ page :: behind ∧
          assemble host options before draft = (none, final) ∧
          assemblePage host options page final = (some error, final)) ∧
      ∀ first second, pages = first ++ second →
        assemble host options pages draft =
          match assemble host options first draft with
          | (none, next) => assemble host options second next
          | (some error, next) => (some error, next) := by
  refine ⟨?_, fun hBuster error final hRun => assemble_stops hBuster pages hRun, ?_⟩
  · have hKept : ∀ page ∈ pages, ∀ file : PublishedFile,
        file.path = pagePath options (pageSlug page.name) → isApart options pages file = false := by
      intro page hPage file hPath
      rw [isApart, List.all_eq_false]
      exact ⟨page, hPage, by simpa using hPath⟩
    exact (assemble_filter_sublist host hKept draft).trans List.filter_sublist
  · rintro first second rfl
    exact assemble_append host options first second draft

/-- A page with data of a source that is known, and one with data of a source that is not. -/
def brokenSite : Site where
  pages := [⟨"Home", {}, .leaf { id := "home" }⟩, ⟨"Lost", {}, .leaf { id := "lost" }⟩]
  dataSources := [{ id := "cms", url := "/graphql" }]
  queries := .ofList
    [("Home", .ofList [("cms", "query")]), ("Lost", .ofList [("cms", "query"), ("wiki", "query")])]

/-- The templates of these pages in another order, around a style sheet. -/
def brokenDraft : Draft where
  context := Context.start {} 7 []
  files := [⟨"/lost.html", .html, "lost"⟩, ⟨"/main.css", .css, "css"⟩,
    ⟨"/home.html", .html, "home"⟩]
  notices := []

theorem brokenSite_frame : ∃ final,
    assemble brokenSite.host { cacheBuster := .build } brokenSite.pages brokenDraft =
        (some (.unknownDataSource "wiki"), final) ∧
      [⟨"/main.css", .css, "css"⟩].Sublist final.files ∧
      ∃ before page behind, brokenSite.pages = before ++ page :: behind ∧
        assemble brokenSite.host { cacheBuster := .build } before brokenDraft = (none, final) ∧
        assemblePage brokenSite.host { cacheBuster := .build } page final =
          (some (.unknownDataSource "wiki"), final) := by
  have hError : (assemble brokenSite.host { cacheBuster := .build } brokenSite.pages
      brokenDraft).1 = some (.unknownDataSource "wiki") := by
    decide +kernel
  obtain ⟨hKept, hStops, -⟩ := assemble_frame brokenSite.host { cacheBuster := .build }
    brokenSite.pages brokenDraft
  have hStyles : brokenDraft.files.filter (isApart { cacheBuster := .build } brokenSite.pages) =
      [⟨"/main.css", .css, "css"⟩] := by
    decide +kernel
  rw [hStyles] at hKept
  exact ⟨_, Prod.ext hError rfl, hKept, hStops (by decide) _ _ (Prod.ext hError rfl)⟩

end PagePress
