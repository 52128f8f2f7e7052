import Mathlib.Data.Nat.Basic
import Mathlib.Order.Monotone.Defs
import PagePress.Proofs.Publication.Outcome

/-!
# Pages on their own

Pages share one counter of variables, one list of files that is searched by path, and one list of
notices. When no page lies at the path of another, none of this carries anything from one page to
the next but the numbers of variables: the files of a site are those that its pages have when each
is published alone.

In the assembly the files lie in three groups: the first files of the pages that are done, the
rendered files of the pages to come, and the other files of the pages that are done. The next page
finds its file at the border of the first two groups, because no file before has its path.

## Main results

* `assemble_apart` — an assembly gives every page what it becomes by itself.
* `publishPages_local` — a site is published page by page.
-/

namespace PagePress

open Publisher Assembly

/-! ## Paths that do not meet -/

/-- The paths of a page in its languages. -/
def variantPaths (options : Options) (page : Page) : List String :=
  (validated page).1.settings.languages.map fun lang =>
    Route.withLanguage ".html" lang (pagePath options (pageSlug page.name))

/-- Pages at distinct paths, none of which is the path of another page in one of its languages. -/
structure PathsApart (options : Options) (pages : List Page) : Prop where
  distinct : (pages.map fun page => pagePath options (pageSlug page.name)).Nodup
  variants : ∀ page ∈ pages, ∀ other ∈ pages, page ≠ other →
    pagePath options (pageSlug other.name) ∉ variantPaths options page

variable {host : Host} {options : Options} {context : Context} {pages : List Page}

theorem pagePath_mem_outputPaths {page : Page} {slug : String} :
    pagePath options slug ∈ outputPaths host options page ↔ slug ∈ fileNames page := by
  rw [outputPaths, List.mem_flatMap, pagePath_eq]
  constructor
  · rintro ⟨name, hName, hMem⟩
    rcases mem_filePaths.1 hMem with hEq | ⟨-, hEq⟩
    · rw [templatePath_inj.1 hEq]
      exact hName
    · exact absurd hEq (templatePath_ne_sidecarPath options slug name)
  · exact fun hName => ⟨slug, hName, mem_filePaths.2 (.inl rfl)⟩

/-- What a page becomes does not lie at a path that is neither its own nor that of one of its
languages. -/
theorem not_mem_outputPaths {page : Page} {slug : String}
    (hDistinct : pagePath options slug ≠ pagePath options (pageSlug page.name))
    (hVariants : ∀ lang ∈ page.settings.languages,
      Route.withLanguage ".html" lang (pagePath options (pageSlug page.name)) ≠
        pagePath options slug) :
    pagePath options slug ∉ Assembly.outputPaths host options page := by
  rw [pagePath_mem_outputPaths]
  intro hMem
  unfold fileNames at hMem
  split at hMem
  · have hSlug := List.mem_singleton.1 hMem
    exact hDistinct (congrArg (pagePath options) hSlug)
  · obtain ⟨lang, hLang, hSlug⟩ := List.mem_map.1 hMem
    apply hVariants lang hLang
    rw [pagePath_eq, withLanguage_templatePath, pagePath_eq]
    exact congrArg (templatePath options) hSlug

/-- What a page becomes does not lie at the path of another one. -/
theorem PathsApart.outputPaths (h : PathsApart options pages) :
    (pages.filterMap (rendered? host context)).Pairwise fun page other =>
      pagePath options (pageSlug other.name) ∉ outputPaths host options page := by
  rw [List.pairwise_filterMap]
  refine (List.pairwise_map.1 h.distinct).imp_of_mem ?_
  intro page other hPage hOther hDistinct page' hPage' other' hOther'
  obtain ⟨-, rfl⟩ := rendered?_eq_some.1 hPage'
  obtain ⟨-, rfl⟩ := rendered?_eq_some.1 hOther'
  have hVariants := h.variants page hPage other hOther
    fun hEq => hDistinct (by rw [hEq])
  refine not_mem_outputPaths (Ne.symm hDistinct) fun lang hLang hEq => ?_
  exact hVariants (List.mem_map.2 ⟨lang, hLang, hEq⟩)

/-! ## Files up to numbers -/

/-- Files with one path and one type, whose contents are one pattern under two numberings. -/
structure Renumbered (σ τ : Numbering) (f g : PublishedFile) : Prop where
  path : f.path = g.path
  type : f.type = g.type
  content : ∃ p : Pattern, p.fill σ = f.content ∧ p.fill τ = g.content

theorem AlikeFile.renumbered {P : Pairing} {bound : Nat} {f g : PublishedFile}
    (h : AlikeFile P True bound f g) : Renumbered P.first P.second f g := by
  obtain ⟨p, -, hFirst, hSecond⟩ := h.content trivial
  exact ⟨h.path, h.type, p, hFirst, hSecond⟩

/-- Files that are other ones but for the numbers of their variables, which keep their order. The
numbers before count from a context. -/
def RenumberedFrom (context : Context) (files files' : List PublishedFile) : Prop :=
  ∃ ν : Numbering, StrictMono ν ∧
    List.Forall₂ (Renumbered (context.nextVariable + ·) ν) files files'

/-- What a page becomes; nothing when its front matter does not compile. -/
def assembledFiles (host : Host) (options : Options) (page : Page) (file : PublishedFile)
    (context : Context) : List PublishedFile :=
  match (pageFiles host options page file).runIn context with
  | (.ok files, _) => files
  | (.error _, _) => []

/-- The numbers of a page that takes some variables from a start on when it renders, and all others
from another start on when it is assembled. -/
def twoStarts (start taken later : Nat) : Numbering := fun place =>
  if place < taken then start + place else later + (place - taken)

theorem twoStarts_strictMono {start taken later : Nat} (h : start + taken ≤ later) :
    StrictMono (twoStarts start taken later) := by
  intro i j hij
  unfold twoStarts
  split <;> split <;> omega

/-- A page alone, and the same page in a site: alone it takes all its variables in one go. -/
def Pairing.ofStarts (context : Context) (start taken later : Nat) : Pairing where
  sources := context.globalSources
  buildId := context.buildId
  first := (context.nextVariable + ·)
  second := twoStarts start taken later

theorem Pairing.at_ofStarts_first {start taken later : Nat} {next : Context}
    (hNext : next.Follows context) (hTaken : next.nextVariable = context.nextVariable + taken) :
    (Pairing.ofStarts context start taken later).At
      (Pairing.ofStarts context start taken later).first taken next := by
  refine ⟨fun i => ?_, hNext.sources, hNext.buildId⟩
  show context.nextVariable + (taken + i) = next.nextVariable + i
  omega

theorem Pairing.at_ofStarts_second {start taken : Nat} {now : Context}
    (hNow : now.Follows context) :
    (Pairing.ofStarts context start taken now.nextVariable).At
      (Pairing.ofStarts context start taken now.nextVariable).second taken now := by
  refine ⟨fun i => ?_, hNow.sources, hNow.buildId⟩
  show twoStarts start taken now.nextVariable (taken + i) = now.nextVariable + i
  have hAfter : ¬ taken + i < taken := by omega
  rw [twoStarts, if_neg hAfter]
  omega

/-- What a page becomes in a site is what it becomes alone, up to numbers. -/
theorem assembledFiles_renumbered (hBuster : options.cacheBuster ≠ .random) {page : Page}
    {file : PublishedFile} {later now : Context} (hLater : later.Follows context)
    (hFile : IsRendering host options context later page file) (hNow : now.Follows later) :
    ∃ text next, (Markup.renderTree host.resultType page.component).runIn context =
        (.ok text, next) ∧
      RenumberedFrom context
        (assembledFiles host options page
          ⟨pagePath options (pageSlug page.name), .html, text⟩ next)
        (assembledFiles host options page file now) := by
  obtain ⟨text, next, start, taken, hRun, hTaken, hEnd, hAlike⟩ := hFile.content
  refine ⟨text, next, hRun, ?_⟩
  have hNext := renderTree_follows host page context
  rw [hRun] at hNext
  have hBefore : AlikeFile (Pairing.ofStarts context start taken now.nextVariable) True taken
      ⟨pagePath options (pageSlug page.name), .html, text⟩ file := by
    refine ⟨hFile.path.symm, hFile.type.symm, fun _ => hAlike.renumber (fun _ _ => rfl) ?_⟩
    intro place hPlace
    show start + place = twoStarts start taken now.nextVariable place
    rw [twoStarts, if_pos hPlace]
  have hAgree := inStep_pageFiles host page (fun _ => hBuster) hBefore next now
    (Pairing.at_ofStarts_first hNext hTaken) (Pairing.at_ofStarts_second (hNow.trans hLater))
  have hStarts : start + taken ≤ now.nextVariable := Nat.le_trans hEnd hNow.counter
  refine ⟨twoStarts start taken now.nextVariable, twoStarts_strictMono hStarts, ?_⟩
  unfold assembledFiles
  cases hAlone : (pageFiles host options page
      ⟨pagePath options (pageSlug page.name), .html, text⟩).runIn next with
  | mk result after =>
      cases hWhole : (pageFiles host options page file).runIn now with
      | mk result' after' =>
          rw [hAlone, hWhole] at hAgree
          cases hAgree with
          | ok _ _ _ hFiles => exact hFiles.imp fun _ _ h => h.renumbered
          | error _ _ _ => exact .nil

/-! ## Assembling pages apart -/

namespace Assembly

theorem findFile?_append {path : String} {firsts others : List PublishedFile}
    {file : PublishedFile} (hFirsts : ∀ other ∈ firsts, other.path ≠ path)
    (hPath : file.path = path) :
    findFile? path (firsts ++ file :: others) = some (firsts.length, file) := by
  induction firsts with
  | nil => simp [findFile?, hPath]
  | cons first rest ih =>
      have hFirst : first.path ≠ path := hFirsts first List.mem_cons_self
      have hRest := ih fun other hm => hFirsts other (List.mem_cons_of_mem _ hm)
      simp [findFile?, hFirst, hRest]

variable {page : Page} {file : PublishedFile} {draft : Draft}

theorem assemble_singleton (host : Host) (options : Options) (page : Page) (draft : Draft) :
    assemble host options [page] draft = assemblePage host options page draft := by
  rw [assemble]
  rcases assemblePage host options page draft with ⟨_ | error, next⟩ <;> rfl

theorem assembledFiles_path (host : Host)
    (hPath : file.path = pagePath options (pageSlug page.name))
    (hType : file.type = .html) (now : Context) :
    ∀ other ∈ assembledFiles host options page file now,
      other.path ∈ outputPaths host options page := by
  intro other hm
  unfold assembledFiles at hm
  cases hRun : (pageFiles host options page file).runIn now with
  | mk result after =>
      rw [hRun] at hm
      cases result with
      | error error => cases hm
      | ok files =>
          have hLie := pageFiles_returns host (hPath.trans (pagePath_eq options _)) hType _ _ _ hRun
          rw [← hLie.paths]
          exact List.mem_map_of_mem hm

/-- The file between two groups gives way to the first file that its page becomes, and the other
files go to the end. -/
theorem assembleAt_border {firsts others : List PublishedFile}
    (hFiles : draft.files = firsts ++ file :: others) (hDraft : draft.context.Follows context)
    (hPath : file.path = pagePath options (pageSlug page.name)) (hType : file.type = .html)
    (hKnown : unknownSource? host page = none) :
    ∃ next, assembleAt host options page firsts.length file draft = (none, next) ∧
      next.context.Follows draft.context ∧
      next.files = firsts ++ (assembledFiles host options page file draft.context).take 1 ++
        (others ++ (assembledFiles host options page file draft.context).drop 1) := by
  have hFollows := pageFiles_follows host options page file draft.context
  have hFault := pageFiles_fault? host options hDraft page file
  rw [assemblyFault?, hKnown, Option.map_none, Option.none_or] at hFault
  unfold assembleAt assembledFiles
  cases hRun : (pageFiles host options page file).runIn draft.context with
  | mk result after =>
      rw [hRun] at hFollows
      cases result with
      | error error =>
          rw [Pass.fault?_of_error hRun] at hFault
          simp only [headerFault?_isPageLocal hFault.symm, ↓reduceIte]
          refine ⟨_, rfl, hFollows, ?_⟩
          simp [hFiles, List.eraseIdx_append_of_length_le]
      | ok files =>
          have hLie := pageFiles_returns host (hPath.trans (pagePath_eq options _)) hType _ _ _ hRun
          refine ⟨_, rfl, hFollows, ?_⟩
          cases files with
          | nil => exact absurd hLie.paths.symm (outputPaths_ne_nil host options page)
          | cons first rest => simp [hFiles, placeFiles]

/-- A page whose path no file before its own has is assembled at that file. -/
theorem assemblePage_eq_assembleAt {firsts others : List PublishedFile}
    (hFiles : draft.files = firsts ++ file :: others)
    (hPath : file.path = pagePath options (pageSlug page.name)) (hType : file.type = .html)
    (hFirsts : ∀ other ∈ firsts, other.path ≠ pagePath options (pageSlug page.name)) :
    assemblePage host options page draft =
      assembleAt host options page firsts.length file draft := by
  have hFind : findFile? (pagePath options (pageSlug page.name)) draft.files =
      some (firsts.length, file) := by
    rw [hFiles]
    exact findFile?_append hFirsts hPath
  simp only [assemblePage, hFind, hType, ↓reduceIte]

/-- A page whose path no file before its own has finds that file. -/
theorem assemblePage_border {firsts others : List PublishedFile}
    (hFiles : draft.files = firsts ++ file :: others) (hDraft : draft.context.Follows context)
    (hPath : file.path = pagePath options (pageSlug page.name)) (hType : file.type = .html)
    (hKnown : unknownSource? host page = none)
    (hFirsts : ∀ other ∈ firsts, other.path ≠ pagePath options (pageSlug page.name)) :
    ∃ next, assemblePage host options page draft = (none, next) ∧
      next.context.Follows draft.context ∧
      next.files = firsts ++ (assembledFiles host options page file draft.context).take 1 ++
        (others ++ (assembledFiles host options page file draft.context).drop 1) := by
  rw [assemblePage_eq_assembleAt hFiles hPath hType hFirsts]
  exact assembleAt_border hFiles hDraft hPath hType hKnown

end Assembly

/-- Files are what a page becomes when it is rendered in a context, up to numbers. -/
def IsAssembled (host : Host) (options : Options) (context : Context) (page : Page)
    (files : List PublishedFile) : Prop :=
  ∃ text next, (Markup.renderTree host.resultType page.component).runIn context =
      (.ok text, next) ∧
    RenumberedFrom context
      (assembledFiles host options page ⟨pagePath options (pageSlug page.name), .html, text⟩ next)
      files

/-- An assembly gives every page what it becomes by itself: the first file of each in place of the
rendered one, and the others at the end. -/
theorem assemble_apart (hBuster : options.cacheBuster ≠ .random) {later : Context}
    (hLater : later.Follows context) {slots : List PublishedFile}
    (hSlots : List.Forall₂ (IsRendering host options context later) pages slots) :
    ∀ firsts others draft, draft.files = firsts ++ (slots ++ others) →
      draft.context.Follows later → (∀ page ∈ pages, unknownSource? host page = none) →
      pages.Pairwise (fun page other =>
        pagePath options (pageSlug other.name) ∉ outputPaths host options page) →
      (∀ file ∈ firsts, ∀ page ∈ pages, file.path ≠ pagePath options (pageSlug page.name)) →
      ∃ shares, List.Forall₂ (IsAssembled host options context) pages shares ∧
        (assemble host options pages draft).2.files =
          firsts ++ shares.flatMap (·.take 1) ++ (others ++ shares.flatMap (·.drop 1)) := by
  induction hSlots with
  | nil =>
      intro firsts others draft hFiles _ _ _ _
      exact ⟨[], .nil, by simpa [assemble] using hFiles⟩
  | @cons page file pages slots hFile hRest ih =>
      intro firsts others draft hFiles hDraft hKnown hApart hFirsts
      obtain ⟨hHead, hTail⟩ := List.pairwise_cons.1 hApart
      rw [List.cons_append] at hFiles
      obtain ⟨next, hPage, hNext, hNextFiles⟩ := assemblePage_border hFiles
        (hDraft.trans hLater) hFile.path hFile.type (hKnown page List.mem_cons_self)
        fun other hm => hFirsts other hm page List.mem_cons_self
      have hShare := assembledFiles_renumbered hBuster hLater hFile hDraft
      have hPaths := assembledFiles_path host hFile.path hFile.type draft.context
      generalize assembledFiles host options page file draft.context = share
        at hNextFiles hShare hPaths
      have hBefore : ∀ moved ∈ firsts ++ share.take 1, ∀ other ∈ pages,
          moved.path ≠ pagePath options (pageSlug other.name) := by
        intro moved hMoved other hm hEq
        rcases List.mem_append.1 hMoved with hOld | hNew
        · exact hFirsts moved hOld other (List.mem_cons_of_mem _ hm) hEq
        · exact hHead other hm (hEq ▸ hPaths moved (List.mem_of_mem_take hNew))
      have hGroups : next.files =
          (firsts ++ share.take 1) ++ (slots ++ (others ++ share.drop 1)) := by
        rw [hNextFiles]
        simp only [List.append_assoc]
      obtain ⟨shares, hShares, hFinal⟩ := ih _ _ next hGroups (hNext.trans hDraft)
        (fun other hm => hKnown other (List.mem_cons_of_mem _ hm)) hTail hBefore
      refine ⟨share :: shares, .cons hShare hShares, ?_⟩
      rw [assemble, hPage, hFinal]
      simp only [List.flatMap_cons, List.append_assoc]

/-! ## A page alone -/

/-- Files are those of a page that is published alone, up to numbers. -/
def IsShare (host : Host) (options : Options) (context : Context) (page : Page)
    (files : List PublishedFile) : Prop :=
  RenumberedFrom context (publishPages host options [page] context).2.files files

theorem publishPages_singleton (page : Page) {text : String} {next : Context}
    (hRun : (Markup.renderTree host.resultType page.component).runIn context = (.ok text, next)) :
    publishPages host options [page] context =
      let file : PublishedFile := ⟨pagePath options (pageSlug page.name), .html, text⟩
      let draft : Draft := ⟨next, [file], (validated page).2⟩
      if options.enabled then assembleAt host options (validated page).1 0 file draft
      else (none, draft) := by
  simp only [publishPages, renderPages, renderPage, validated, hRun, List.nil_append,
    assemble_singleton, assemblePage, findFile?, ↓reduceIte]

/-- A page that does not render has no files. -/
theorem isShare_of_not_renders {page : Page} (h : rendered? host context page = none) :
    IsShare host options context page [] := by
  obtain ⟨draft, -, hFiles, -, hRun⟩ := publishPages_run host options [page] context
  have hPages : [page].filterMap (rendered? host context) = [] := by simp [h]
  rw [hPages] at hFiles hRun
  have hNone : (publishPages host options [page] context).2.files = [] := by
    rw [hRun]
    cases hFiles' : draft.files with
    | nil => cases options.enabled <;> exact hFiles'
    | cons file files =>
        rw [hFiles'] at hFiles
        cases hFiles
  refine ⟨id, strictMono_id, ?_⟩
  rw [hNone]
  exact .nil

/-- Without a generator the rendered file of a page is its share. -/
theorem isShare_of_isRendering (hEnabled : options.enabled = false) {later : Context} {page : Page}
    {file : PublishedFile}
    (hFile : IsRendering host options context later (validated page).1 file) :
    IsShare host options context page [file] := by
  obtain ⟨text, next, start, taken, hRun, -, -, p, -, hFirst, hSecond⟩ := hFile.content
  have hAlone : (publishPages host options [page] context).2.files =
      [⟨pagePath options (pageSlug page.name), .html, text⟩] := by
    rw [publishPages_singleton page hRun]
    simp [hEnabled]
  refine ⟨(start + ·), fun i j hij => Nat.add_lt_add_left hij start, ?_⟩
  rw [hAlone]
  exact .cons ⟨hFile.path.symm, hFile.type.symm, p, hFirst, hSecond⟩ .nil

/-- What an assembly makes of a page is its share. -/
theorem isShare_of_isAssembled (hEnabled : options.enabled = true) {page : Page}
    {files : List PublishedFile} (hKnown : unknownSource? host (validated page).1 = none)
    (hFiles : IsAssembled host options context (validated page).1 files) :
    IsShare host options context page files := by
  obtain ⟨text, next, hRun, hShare⟩ := hFiles
  let file : PublishedFile := ⟨pagePath options (pageSlug page.name), .html, text⟩
  let draft : Draft := ⟨next, [file], (validated page).2⟩
  have hDraft : draft.files = [] ++ file :: [] := rfl
  have hPath : file.path = pagePath options (pageSlug (validated page).1.name) := rfl
  obtain ⟨final, hFinal, -, hFinalFiles⟩ := assembleAt_border hDraft (.refl _) hPath rfl hKnown
  have hAlone : (publishPages host options [page] context).2.files =
      assembledFiles host options (validated page).1 file next := by
    rw [publishPages_singleton page hRun, if_pos hEnabled]
    rw [List.length_nil] at hFinal
    rw [hFinal, hFinalFiles, List.nil_append, List.nil_append]
    exact List.take_append_drop 1 _
  unfold IsShare
  rw [hAlone]
  exact hShare

/-! ## A site page by page -/

/-- What belongs to the pages that rendered belongs to all pages, when the others have nothing. -/
theorem exists_forall₂_of_filterMap {α β γ : Type} {f : α → Option β} {R : β → List γ → Prop}
    {S : α → List γ → Prop} (hSome : ∀ a b c, f a = some b → R b c → S a c)
    (hNone : ∀ a, f a = none → S a []) (as : List α) :
    ∀ cs, List.Forall₂ R (as.filterMap f) cs → ∃ all, List.Forall₂ S as all ∧
      ∀ g : List γ → List γ, g [] = [] → all.flatMap g = cs.flatMap g := by
  induction as with
  | nil =>
      intro cs h
      cases h
      exact ⟨[], .nil, fun _ _ => rfl⟩
  | cons a as ih =>
      intro cs h
      rw [List.filterMap_cons] at h
      cases hf : f a with
      | none =>
          rw [hf] at h
          obtain ⟨all, hAll, hEq⟩ := ih cs h
          exact ⟨[] :: all, .cons (hNone a hf) hAll, fun g hg => by simp [hg, hEq g hg]⟩
      | some b =>
          rw [hf] at h
          cases h with
          | @cons _ c _ cs hHead hTail =>
              obtain ⟨all, hAll, hEq⟩ := ih cs hTail
              exact ⟨c :: all, .cons (hSome a b c hf hHead) hAll, fun g hg => by simp [hEq g hg]⟩

/-- Without a generator every page that renders has its one file. -/
theorem publishPages_files_of_disabled (hEnabled : options.enabled = false) :
    ∃ shares, List.Forall₂ (IsShare host options context) pages shares ∧
      (publishPages host options pages context).2.files =
        shares.flatMap (·.take 1) ++ shares.flatMap (·.drop 1) := by
  obtain ⟨draft, -, hFiles, -, hRun⟩ := publishPages_run host options pages context
  have hSingles : List.Forall₂ (fun page files => ∃ file, files = [file] ∧
      IsRendering host options context draft.context page file)
      (pages.filterMap (rendered? host context)) (draft.files.map ([·])) := by
    rw [List.forall₂_map_right_iff]
    exact hFiles.imp fun page file h => ⟨file, rfl, h⟩
  obtain ⟨shares, hShares, hEq⟩ := exists_forall₂_of_filterMap
    (fun page page' files hPage h => by
      obtain ⟨file, rfl, hFile⟩ := h
      obtain ⟨-, rfl⟩ := rendered?_eq_some.1 hPage
      exact isShare_of_isRendering hEnabled hFile)
    (fun page => isShare_of_not_renders) pages _ hSingles
  refine ⟨shares, hShares, ?_⟩
  rw [hRun, if_neg (by simp [hEnabled]), hEq _ rfl, hEq _ rfl]
  simp [List.flatMap_map]

/-- An assembly of a site leaves the shares of its pages. -/
theorem publishPages_files_of_enabled (hEnabled : options.enabled = true)
    (hBuster : options.cacheBuster ≠ .random) (hApart : PathsApart options pages)
    (hOk : (publishPages host options pages context).1 = none) :
    ∃ shares, List.Forall₂ (IsShare host options context) pages shares ∧
      (publishPages host options pages context).2.files =
        shares.flatMap (·.take 1) ++ shares.flatMap (·.drop 1) := by
  have hKnown := unknownSource?_of_publishPages hEnabled hOk
  obtain ⟨draft, hDraft, hFiles, -, hRun⟩ := publishPages_run host options pages context
  obtain ⟨assembled, hAssembled, hFinal⟩ := assemble_apart hBuster hDraft hFiles [] [] draft
    (by simp) (.refl _) hKnown hApart.outputPaths (by simp)
  have hBoth := (List.forall₂_and_left _ _).2 ⟨hKnown, hAssembled⟩
  obtain ⟨shares, hShares, hEq⟩ := exists_forall₂_of_filterMap
    (fun page page' files hPage h => by
      obtain ⟨-, rfl⟩ := rendered?_eq_some.1 hPage
      exact isShare_of_isAssembled hEnabled h.1 h.2)
    (fun page => isShare_of_not_renders) pages _ hBoth
  refine ⟨shares, hShares, ?_⟩
  rw [hRun, if_pos hEnabled, hFinal, hEq _ rfl, hEq _ rfl]
  simp

theorem publishPages_notices (hOk : (publishPages host options pages context).1 = none) :
    (publishPages host options pages context).2.notices =
      pages.flatMap (renderNotices host context) ++ pages.flatMap fun page =>
        if options.enabled then
          (rendered? host context page).toList.flatMap (headerNotices options context)
        else [] := by
  cases hEnabled : options.enabled with
  | false =>
      obtain ⟨draft, -, -, hNotices, hRun⟩ := publishPages_run host options pages context
      rw [hRun, if_neg (by simp [hEnabled]), hNotices]
      simp
  | true =>
      rw [(publishPages_stock hEnabled hOk).2, List.filterMap_eq_flatMap_toList,
        List.flatMap_assoc]
      simp

/-- A site is published exactly when each of its pages is published alone. Its files are then those
of its pages up to the numbers of variables, the first file of every page before all others, and
its notices are theirs in some order. -/
theorem publishPages_local (host : Host) (options : Options) (pages : List Page)
    (context : Context) (hBuster : options.cacheBuster ≠ .random)
    (hApart : PathsApart options pages) :
    ((publishPages host options pages context).1 = none ↔
        ∀ page ∈ pages, (publishPages host options [page] context).1 = none) ∧
      ((publishPages host options pages context).1 = none →
        (∃ shares, List.Forall₂ (IsShare host options context) pages shares ∧
          (publishPages host options pages context).2.files =
            shares.flatMap (·.take 1) ++ shares.flatMap (·.drop 1)) ∧
        (publishPages host options pages context).2.notices.Perm
          (pages.flatMap fun page => (publishPages host options [page] context).2.notices)) := by
  have hEach : (publishPages host options pages context).1 = none ↔
      ∀ page ∈ pages, (publishPages host options [page] context).1 = none := by
    simp only [publishPages_ok_iff, List.mem_singleton, forall_eq]
    exact ⟨fun h page hPage hEnabled => h hEnabled page hPage,
      fun h hEnabled page hPage => h page hPage hEnabled⟩
  refine ⟨hEach, fun hOk => ⟨?_, ?_⟩⟩
  · cases hEnabled : options.enabled with
    | false => exact publishPages_files_of_disabled hEnabled
    | true => exact publishPages_files_of_enabled hEnabled hBuster hApart hOk
  · have hAlone : ∀ page ∈ pages, (publishPages host options [page] context).2.notices =
        renderNotices host context page ++ if options.enabled then
          (rendered? host context page).toList.flatMap (headerNotices options context) else [] := by
      intro page hPage
      rw [publishPages_notices (hEach.1 hOk page hPage)]
      simp
    rw [publishPages_notices hOk, List.flatMap_congr hAlone]
    exact List.flatMap_append_perm pages _ _

/-- A binding of the text of an element to a field of a data source. -/
def boundText : StoredState :=
  ⟨"innerHTML", none, false, [.property ⟨"title", "title", some "cms", [], .scalar, none⟩]⟩

/-- Two pages with bound texts, one of them in two languages, and a page that does not render. -/
def boundSite : Site where
  pages :=
    [⟨"Home", { languagesList := some "en, fr" },
      .leaf { id := "body", tagName := some "body", privateStates := [boundText] }⟩,
    ⟨"Draft", {}, .leaf { id := "body", unwrap := true }⟩,
    ⟨"Blog", {}, .leaf { id := "body", tagName := some "body", privateStates := [boundText] }⟩]

theorem boundSite_local :
    (publishPages boundSite.host { cacheBuster := .none } boundSite.pages
        (Context.start {} 0 [])).1 = none ∧
      (∃ shares, List.Forall₂
          (IsShare boundSite.host { cacheBuster := .none } (Context.start {} 0 []))
          boundSite.pages shares ∧
        (publishPages boundSite.host { cacheBuster := .none } boundSite.pages
            (Context.start {} 0 [])).2.files =
          shares.flatMap (·.take 1) ++ shares.flatMap (·.drop 1)) ∧
      (publishPages boundSite.host { cacheBuster := .none } boundSite.pages
          (Context.start {} 0 [])).2.notices.Perm
        (boundSite.pages.flatMap fun page => (publishPages boundSite.host { cacheBuster := .none }
          [page] (Context.start {} 0 [])).2.notices) := by
  have hVariants : ∀ page ∈ boundSite.pages, ∀ other ∈ boundSite.pages,
      pagePath { cacheBuster := .none } (pageSlug other.name) ∉
        variantPaths { cacheBuster := .none } page := by
    decide +kernel
  have hApart : PathsApart { cacheBuster := .none } boundSite.pages :=
    ⟨by decide +kernel, fun page hPage other hOther _ => hVariants page hPage other hOther⟩
  obtain ⟨hEach, hFiles⟩ := publishPages_local boundSite.host { cacheBuster := .none }
    boundSite.pages (Context.start {} 0 []) (by decide) hApart
  have hOk := hEach.2 (by decide +kernel)
  exact ⟨hOk, hFiles hOk⟩

end PagePress
