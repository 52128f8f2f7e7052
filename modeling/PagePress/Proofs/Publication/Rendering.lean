import PagePress.Proofs.Numbering.Rendering
import PagePress.Proofs.PageLocal
import PagePress.Publication.Publisher

/-!
# Rendering a site

The first half of a pass never ends early: a page that does not render is left out with a notice,
and every other page adds one file. Whether a page renders does not depend on the pages before it,
and what it renders to depends on them in its numbers only.

## Main results

* `renderPages_run` — what rendering leaves: the files and pages that rendered, and the notices.
* `publishPages_run` — a pass is an assembly of that, or ends there.
-/

namespace PagePress

namespace Publisher

/-! ## Pages that render -/

/-- The fault of a page in rendering. -/
def renderFault? (host : Host) (context : Context) (page : Page) : Option PublishError :=
  (Markup.renderTree host.resultType page.component).fault? context

/-- The page with validated settings, when it renders. -/
def rendered? (host : Host) (context : Context) (page : Page) : Option Page :=
  match renderFault? host context page with
  | none => some (validated page).1
  | some _ => none

/-- The notices of a page in rendering: its cleared settings, and that it was left out. -/
def renderNotices (host : Host) (context : Context) (page : Page) : List Notice :=
  (validated page).2 ++ ((renderFault? host context page).map (.pageDropped page.name)).toList

theorem rendered?_eq_some {host : Host} {context : Context} {page page' : Page} :
    rendered? host context page = some page' ↔
      renderFault? host context page = none ∧ (validated page).1 = page' := by
  unfold rendered?
  cases renderFault? host context page <;> simp

theorem renderFault?_isPageLocal {host : Host} {context : Context} {page : Page}
    {error : PublishError} (h : renderFault? host context page = some error) :
    error.isPageLocal = true := by
  obtain ⟨next, hRun⟩ := Pass.fault?_eq_some h
  exact Markup.renderTree_raises _ _ _ _ _ hRun

/-- A page renders alike everywhere in a pass. -/
theorem renderFault?_eq (host : Host) {context later : Context} (hLater : later.Follows context)
    (page : Page) : renderFault? host later page = renderFault? host context page :=
  Pairing.InStep.fault?_eq hLater (Markup.inStep_renderTree host.resultType page.component 0)

theorem renderTree_follows (host : Host) (page : Page) (context : Context) :
    ((Markup.renderTree host.resultType page.component).runIn context).2.Follows context :=
  Pairing.InStep.follows (Markup.inStep_renderTree host.resultType page.component 0)

/-! ## Files of rendered pages -/

/-- A file is what a page renders to, somewhere between a context and a later one, up to the numbers
that the page gets in the first context. -/
structure IsRendering (host : Host) (options : Options) (context later : Context) (page : Page)
    (file : PublishedFile) : Prop where
  path : file.path = Assembly.pagePath options (pageSlug page.name)
  type : file.type = .html
  content : ∃ text next start taken,
    (Markup.renderTree host.resultType page.component).runIn context = (.ok text, next) ∧
      next.nextVariable = context.nextVariable + taken ∧
      start + taken ≤ later.nextVariable ∧
      Alike (context.nextVariable + ·) (start + ·) taken text file.content

variable {host : Host} {options : Options} {context : Context}

theorem IsRendering.mono {later next : Context} {page : Page} {file : PublishedFile}
    (h : IsRendering host options context later page file) (hNext : next.Follows later) :
    IsRendering host options context next page file := by
  obtain ⟨text, after, start, taken, hRun, hTaken, hEnd, hAlike⟩ := h.content
  exact ⟨h.path, h.type, text, after, start, taken, hRun, hTaken,
    Nat.le_trans hEnd hNext.counter, hAlike⟩

/-- What a page renders to later in a pass is what it renders to in its context, up to numbers. -/
theorem isRendering_of_runIn {later next : Context} (hLater : later.Follows context) {page : Page}
    {content : String}
    (hRun : (Markup.renderTree host.resultType page.component).runIn later = (.ok content, next)) :
    IsRendering host options context next (validated page).1
      ⟨Assembly.pagePath options (pageSlug page.name), .html, content⟩ := by
  have hAgree := Markup.inStep_renderTree (P := Pairing.ofContexts context later) host.resultType
    page.component 0 context later (Pairing.at_ofContexts_first context later)
    (Pairing.at_ofContexts_second hLater)
  rw [hRun] at hAgree
  cases hAlone : (Markup.renderTree host.resultType page.component).runIn context with
  | mk result after =>
      rw [hAlone] at hAgree
      cases hAgree with
      | @ok text _ _ _ taken _ hFirst hSecond hAlike =>
          have hTaken : context.nextVariable + (taken + 0) = after.nextVariable + 0 :=
            hFirst.next 0
          have hEnd : later.nextVariable + (taken + 0) = next.nextVariable + 0 := hSecond.next 0
          refine ⟨rfl, rfl, text, after, later.nextVariable, taken, hAlone, ?_, ?_, hAlike⟩ <;>
            omega

/-- A page that does not render leaves its notices only. -/
theorem renderPage_of_error (page : Page) (work : Rendered) {error : PublishError}
    {next : Context} (hFault : renderFault? host context page = some error)
    (hRun : (Markup.renderTree host.resultType page.component).runIn work.draft.context =
      (.error error, next)) :
    renderPage host options page work = (none, {
      draft := {
        context := next
        files := work.draft.files
        notices := work.draft.notices ++ renderNotices host context page }
      pages := work.pages }) := by
  have hLocal := renderFault?_isPageLocal hFault
  simp only [renderPage, validated, hRun, hLocal, renderNotices, hFault, ↓reduceIte,
    List.append_assoc, Option.map_some, Option.toList_some]

/-- A page that renders leaves its file. -/
theorem renderPage_of_ok (page : Page) (work : Rendered) {content : String} {next : Context}
    (hFault : renderFault? host context page = none)
    (hRun : (Markup.renderTree host.resultType page.component).runIn work.draft.context =
      (.ok content, next)) :
    renderPage host options page work = (none, {
      draft := {
        context := next
        files := work.draft.files ++
          [⟨Assembly.pagePath options (pageSlug page.name), .html, content⟩]
        notices := work.draft.notices ++ renderNotices host context page }
      pages := work.pages ++ [(validated page).1] }) := by
  simp only [renderPage, validated, hRun, renderNotices, hFault, Option.map_none,
    Option.toList_none, List.append_nil]

theorem renderPage_context (host : Host) (options : Options) (page : Page) (work : Rendered) :
    (renderPage host options page work).2.draft.context =
      ((Markup.renderTree host.resultType page.component).runIn work.draft.context).2 := by
  have hTree : (validated page).1.component = page.component := rfl
  simp only [renderPage, hTree]
  rcases (Markup.renderTree host.resultType page.component).runIn work.draft.context with
    ⟨error | content, next⟩
  · cases hLocal : error.isPageLocal <;> simp [hLocal]
  · rfl

/-- Rendering one page adds its notices, and its page and its file when it renders. -/
theorem renderPage_run (page : Page) (work : Rendered)
    (hWork : work.draft.context.Follows context) : ∃ next files,
      renderPage host options page work = (none, {
        draft := {
          context := next
          files := work.draft.files ++ files
          notices := work.draft.notices ++ renderNotices host context page }
        pages := work.pages ++ (rendered? host context page).toList }) ∧
      next.Follows work.draft.context ∧
      List.Forall₂ (IsRendering host options context next) (rendered? host context page).toList
        files := by
  have hFollows := renderTree_follows host page work.draft.context
  have hFault := renderFault?_eq host hWork page
  cases hRun : (Markup.renderTree host.resultType page.component).runIn work.draft.context with
  | mk result next =>
      rw [hRun] at hFollows
      cases result with
      | error error =>
          rw [renderFault?, Pass.fault?_of_error hRun] at hFault
          have hNone : rendered? host context page = none := by simp [rendered?, ← hFault]
          refine ⟨next, [], ?_, hFollows, ?_⟩
          · rw [renderPage_of_error page work hFault.symm hRun, hNone]
            simp
          · rw [hNone]
            exact .nil
      | ok content =>
          rw [renderFault?, Pass.fault?_of_ok hRun] at hFault
          have hSome := rendered?_eq_some.2 ⟨hFault.symm, rfl⟩
          refine ⟨next, [⟨Assembly.pagePath options (pageSlug page.name), .html, content⟩], ?_,
            hFollows, ?_⟩
          · rw [renderPage_of_ok page work hFault.symm hRun, hSome, Option.toList_some]
          · rw [hSome]
            exact .cons (isRendering_of_runIn hWork hRun) .nil

/-- Rendering a site never fails, and leaves out exactly the pages that do not render. -/
theorem renderPages_run (pages : List Page) : ∀ work : Rendered,
    work.draft.context.Follows context → ∃ next files,
      renderPages host options pages work = (none, {
        draft := {
          context := next
          files := work.draft.files ++ files
          notices := work.draft.notices ++ pages.flatMap (renderNotices host context) }
        pages := work.pages ++ pages.filterMap (rendered? host context) }) ∧
      next.Follows work.draft.context ∧
      List.Forall₂ (IsRendering host options context next)
        (pages.filterMap (rendered? host context)) files := by
  induction pages with
  | nil =>
      intro work hWork
      exact ⟨work.draft.context, [], by simp [renderPages], .refl _, .nil⟩
  | cons page pages ih =>
      intro work hWork
      obtain ⟨middle, first, hRun, hMiddle, hFirst⟩ := renderPage_run page work hWork
      obtain ⟨next, rest, hRuns, hNext, hRest⟩ := ih
        ⟨⟨middle, work.draft.files ++ first, work.draft.notices ++ renderNotices host context page⟩,
          work.pages ++ (rendered? host context page).toList⟩ (hMiddle.trans hWork)
      rw [List.filterMap_eq_flatMap_toList] at hRuns hRest
      rw [List.filterMap_eq_flatMap_toList]
      refine ⟨next, first ++ rest, ?_, hNext.trans hMiddle, ?_⟩
      · rw [renderPages, hRun]
        simp only [hRuns, List.flatMap_cons, List.append_assoc]
      · rw [List.flatMap_cons]
        exact List.rel_append (hFirst.imp fun _ _ h => h.mono hNext) hRest

end Publisher

/-! ## The whole pass -/

open Publisher

variable {host : Host} {options : Options} {context : Context}

/-- A pass is its rendering when there is nothing to assemble for, and else an assembly of what was
rendered. -/
theorem publishPages_run (host : Host) (options : Options) (pages : List Page) (context : Context) :
    ∃ draft : Draft, draft.context.Follows context ∧
      List.Forall₂ (IsRendering host options context draft.context)
        (pages.filterMap (rendered? host context)) draft.files ∧
      draft.notices = pages.flatMap (renderNotices host context) ∧
      publishPages host options pages context =
        if options.enabled then
          Assembly.assemble host options (pages.filterMap (rendered? host context)) draft
        else (none, draft) := by
  obtain ⟨next, files, hRun, hNext, hFiles⟩ := renderPages_run pages
    ⟨⟨context, [], []⟩, []⟩ (.refl context)
  refine ⟨⟨next, files, pages.flatMap (renderNotices host context)⟩, hNext, hFiles, rfl, ?_⟩
  rw [publishPages, hRun]
  rfl

end PagePress
