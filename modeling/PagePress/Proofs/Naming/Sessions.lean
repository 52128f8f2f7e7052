import PagePress.Proofs.Naming.Records
import PagePress.Proofs.Publication.Rendering
import PagePress.Proofs.Publication.Stock

/-!
# Names of a session

A session uses one context for one operation after the other: expressions, blocks, components and
front matter are compiled in it, and whole sites are published in it. Operations may fail, and the
next one starts with the context that was left. A record of a session lists the names that its
operations hand out.

An operation on pages is a walk that ends with the first error. It hands out what its steps hand
out, and leaves the counter that they leave, so a session is numbered when its operations are.

## Main results

* `WalkHandsOut.numbered` — a walk over pages is numbered when the work on each page is.
* `Operation.HandsOut.numbered` — the names of an operation are numbered from counter to counter.
* `session_names_distinct` — no name is handed out twice, and none is that of a state.
-/

namespace PagePress

open Pass (Accountable)

/-! ## Data files and pages -/

namespace DataFile

theorem accountable_fetchSource {ε : Type} (options : Options) (source : DataSource)
    (query : String) : Accountable (fetchSource options source query : Pass ε String) := by
  unfold fetchSource
  cases source.kind with
  | other => exact Accountable.pure _
  | graphql =>
      have hNumber : Accountable (busterNumber? options.cacheBuster : Pass ε (Option UInt32)) := by
        cases options.cacheBuster with
        | none => exact Accountable.pure _
        | build => exact Accountable.get.bind fun _ => Accountable.pure _
        | random => exact Accountable.drawSalt.bind fun _ => Accountable.pure _
      have hUrl : Accountable
          (bustedUrl options.cacheBuster source.transport.url : Pass ε String) :=
        hNumber.bind fun number => by cases number <;> exact Accountable.pure _
      exact hUrl.bind fun _ => Accountable.pure _

theorem accountable_fetchAll (options : Options) (dataSource : String → Option DataSource)
    (entries : List (String × String)) :
    Accountable (fetchAll options dataSource entries) := by
  induction entries with
  | nil => exact Accountable.pure []
  | cons entry rest ih =>
      obtain ⟨id, query⟩ := entry
      unfold fetchAll
      cases dataSource id with
      | none => exact Accountable.throw _
      | some source =>
          exact (accountable_fetchSource options source query).bind fun _ =>
            ih.bind fun _ => Accountable.pure _

end DataFile

theorem accountable_dataFile (options : Options) (dataSource : String → Option DataSource)
    (query : OrderedMap String) : Accountable (dataFile options dataSource query) :=
  (DataFile.accountable_fetchAll options dataSource query.entries).bind fun _ => Accountable.pure _

namespace Assembly

variable (options : Options) (page : Page) (file : PublishedFile)

theorem accountable_pageDataFile? (host : Host) :
    Accountable (pageDataFile? host options page) := by
  unfold pageDataFile?
  cases hEmpty : (pageQuery host page).isEmpty with
  | true =>
      simp only [hEmpty, ↓reduceIte]
      exact Accountable.pure none
  | false =>
      simp only [hEmpty, Bool.false_eq_true, ↓reduceIte]
      exact (accountable_dataFile options host.dataSource _).bind fun _ => Accountable.pure _

theorem accountable_pageContent (lang : Option String) (content : String) :
    Accountable (pageContent options page lang content) :=
  (accountable_frontMatter options page.settings _ _ _ lang).bind fun _ => Accountable.pure _

theorem accountable_variants (data : Option PublishedFile) (langs : List String) :
    Accountable (variants options page file data langs) := by
  induction langs with
  | nil => exact Accountable.pure []
  | cons lang langs ih =>
      have hVariant : Accountable (variant options page file data lang) :=
        (accountable_pageContent options page (some lang) file.content).bind fun _ =>
          Accountable.pure _
      exact hVariant.bind fun _ => ih.bind fun _ => Accountable.pure _

theorem accountable_pageFiles (host : Host) :
    Accountable (pageFiles host options page file) := by
  refine (accountable_pageDataFile? options page host).bind fun data => ?_
  split
  · exact (accountable_pageContent options page none file.content).bind fun _ => Accountable.pure _
  · exact accountable_variants options page file data _

end Assembly

/-! ## Walks over pages -/

section Walks

variable {σ : Type} {step : Page → σ → Option PublishError × σ}
  {record : Page → σ → List String → Prop} {walk : List Page → σ → Option PublishError × σ}

/-- A walk does its step for one page after the other, up to the first error. -/
structure IsWalk (step : Page → σ → Option PublishError × σ)
    (walk : List Page → σ → Option PublishError × σ) : Prop where
  nil : ∀ state, walk [] state = (none, state)
  cons : ∀ page pages state, walk (page :: pages) state =
    match step page state with
    | (none, next) => walk pages next
    | (some error, next) => (some error, next)

/-- A walk hands out what its steps hand out. A record of a step tells what that is. -/
inductive WalkHandsOut (step : Page → σ → Option PublishError × σ)
    (record : Page → σ → List String → Prop) : List Page → σ → List String → Prop
  | nil (state : σ) : WalkHandsOut step record [] state []
  | stopped {page : Page} {pages : List Page} {state next : σ} {names : List String}
      {error : PublishError} (hRun : step page state = (some error, next))
      (h : record page state names) : WalkHandsOut step record (page :: pages) state names
  | next {page : Page} {pages : List Page} {state next : σ} {names others : List String}
      (hRun : step page state = (none, next)) (h : record page state names)
      (hRest : WalkHandsOut step record pages next others) :
      WalkHandsOut step record (page :: pages) state (names ++ others)

theorem exists_walkHandsOut (hRecord : ∀ page state, ∃ names, record page state names)
    (pages : List Page) : ∀ state, ∃ names, WalkHandsOut step record pages state names := by
  induction pages with
  | nil => exact fun state => ⟨[], .nil state⟩
  | cons page pages ih =>
      intro state
      obtain ⟨names, hNames⟩ := hRecord page state
      rcases hRun : step page state with ⟨_ | error, next⟩
      · obtain ⟨others, hOthers⟩ := ih next
        exact ⟨names ++ others, .next hRun hNames hOthers⟩
      · exact ⟨names, .stopped hRun hNames⟩

/-- When every step moves a counter by the names that it hands out, a walk does. -/
theorem WalkHandsOut.numbered (counter : σ → Nat) {pages : List Page} {state : σ}
    {names : List String} (hWalk : IsWalk step walk)
    (hRecord : ∀ page state names, record page state names →
      Numbered (counter state) names (counter (step page state).2))
    (h : WalkHandsOut step record pages state names) :
    Numbered (counter state) names (counter (walk pages state).2) := by
  induction h with
  | nil state =>
      rw [hWalk.nil]
      exact .nil _
  | @stopped page pages state next names error hRun h =>
      have hPage := hRecord page state names h
      rw [hRun] at hPage
      rw [hWalk.cons, hRun]
      exact hPage
  | @next page pages state next names others hRun h _ ih =>
      have hPage := hRecord page state names h
      rw [hRun] at hPage
      rw [hWalk.cons, hRun]
      exact hPage.append ih

end Walks

/-! ## Rendering and assembling pages -/

open Publisher Assembly

variable {host : Host} {options : Options} {page : Page} {pages : List Page} {names : List String}

/-- Rendering a page hands out what rendering its tree hands out. -/
def RenderHandsOut (host : Host) (page : Page) (work : Rendered) (names : List String) : Prop :=
  Pass.HandsOut (Markup.renderTree host.resultType page.component) work.draft.context names

/-- Assembling a page hands out what making its files hands out, and nothing without a template. -/
inductive AssembleHandsOut (host : Host) (options : Options) (page : Page) (draft : Draft) :
    List String → Prop
  | files {place : Nat} {file : PublishedFile} {names : List String}
      (hFile : findFile? (pagePath options (pageSlug page.name)) draft.files = some (place, file))
      (hType : file.type = .html)
      (h : Pass.HandsOut (pageFiles host options page file) draft.context names) :
      AssembleHandsOut host options page draft names
  | notHtml {place : Nat} {file : PublishedFile}
      (hFile : findFile? (pagePath options (pageSlug page.name)) draft.files = some (place, file))
      (hType : file.type ≠ .html) : AssembleHandsOut host options page draft []
  | missing (hFile : findFile? (pagePath options (pageSlug page.name)) draft.files = none) :
      AssembleHandsOut host options page draft []

theorem RenderHandsOut.numbered {work : Rendered} (h : RenderHandsOut host page work names) :
    Numbered work.draft.context.nextVariable names
      (renderPage host options page work).2.draft.context.nextVariable := by
  rw [renderPage_context]
  exact Pass.HandsOut.numbered h

theorem AssembleHandsOut.numbered {draft : Draft}
    (h : AssembleHandsOut host options page draft names) :
    Numbered draft.context.nextVariable names
      (assemblePage host options page draft).2.context.nextVariable := by
  cases h with
  | @files place file names hFile hType h =>
      have hAt : assemblePage host options page draft =
          assembleAt host options page place file draft := by
        simp only [assemblePage, hFile, hType, ↓reduceIte]
      rw [hAt, assembleAt_context]
      exact h.numbered
  | notHtml hFile hType =>
      simp only [assemblePage, hFile, hType, ↓reduceIte]
      exact .nil _
  | missing hFile =>
      simp only [assemblePage, hFile]
      exact .nil _

theorem exists_renderHandsOut (host : Host) (page : Page) (work : Rendered) :
    ∃ names, RenderHandsOut host page work names :=
  Markup.accountable_renderTree host.resultType page.component work.draft.context

theorem exists_assembleHandsOut (host : Host) (options : Options) (page : Page) (draft : Draft) :
    ∃ names, AssembleHandsOut host options page draft names := by
  rcases hFile : findFile? (pagePath options (pageSlug page.name)) draft.files with
    _ | ⟨place, file⟩
  · exact ⟨[], .missing hFile⟩
  · by_cases hType : file.type = .html
    · obtain ⟨names, h⟩ := accountable_pageFiles options page file host draft.context
      exact ⟨names, .files hFile hType h⟩
    · exact ⟨[], .notHtml hFile hType⟩

theorem isWalk_renderPages : IsWalk (renderPage host options) (renderPages host options) := by
  refine ⟨fun _ => rfl, fun page pages work => ?_⟩
  rw [renderPages]
  rcases renderPage host options page work with ⟨_ | _, _⟩ <;> rfl

theorem isWalk_assemble : IsWalk (assemblePage host options) (assemble host options) := by
  refine ⟨fun _ => rfl, fun page pages draft => ?_⟩
  rw [assemble]
  rcases assemblePage host options page draft with ⟨_ | _, _⟩ <;> rfl

/-- Rendering pages in a context hands out what rendering each of them hands out. -/
def RenderingHandsOut (host : Host) (options : Options) (pages : List Page) (context : Context) :
    List String → Prop :=
  WalkHandsOut (renderPage host options) (RenderHandsOut host) pages ⟨⟨context, [], []⟩, []⟩

/-- Assembling pages hands out what assembling each of them hands out. -/
def AssemblyHandsOut (host : Host) (options : Options) : List Page → Draft → List String → Prop :=
  WalkHandsOut (assemblePage host options) (AssembleHandsOut host options)

theorem RenderingHandsOut.numbered {context : Context}
    (h : RenderingHandsOut host options pages context names) :
    Numbered context.nextVariable names
      (renderPages host options pages ⟨⟨context, [], []⟩, []⟩).2.draft.context.nextVariable :=
  WalkHandsOut.numbered (fun work => work.draft.context.nextVariable) isWalk_renderPages
    (fun _ _ _ => RenderHandsOut.numbered) h

theorem AssemblyHandsOut.numbered {draft : Draft}
    (h : AssemblyHandsOut host options pages draft names) :
    Numbered draft.context.nextVariable names
      (assemble host options pages draft).2.context.nextVariable :=
  WalkHandsOut.numbered (fun draft => draft.context.nextVariable) isWalk_assemble
    (fun _ _ _ => AssembleHandsOut.numbered) h

/-! ## Operations -/

/-- What is compiled in a context. -/
inductive Compilation
  | freshVariable (elementId : String)
  | assignment (element : Element) (expression : Expression)
  | echo (element : Element) (expression : Expression)
  | echoInline (element : Element) (expression : Expression)
  | assign (stateId : String) (element : Element) (expression : Expression)
  | loop (resultType : Block.ResultType) (component : Component) (expression : Expression)
  | conditional (element : Element) (condition : Block.Condition)
  | renderComponent (resultType : Block.ResultType) (component : Component)
      (content fallback : String)
  | renderTree (resultType : Block.ResultType) (tree : Component)
  | permalink (settings : PageSettings) (slug : String) (body : Element)
  | frontMatter (options : Options) (settings : PageSettings) (slug : String) (body : Element)
      (collection lang : Option String)
  | dataFile (options : Options) (dataSource : String → Option DataSource)
      (query : OrderedMap String)

/-- The step of a compilation, without its result. -/
def Compilation.step : Compilation → Pass PublishError Unit
  | .freshVariable elementId => do let _ ← PagePress.freshVariable elementId
  | .assignment element expression => do
    let _ ← Markup.onExpression (PagePress.assignment element expression)
  | .echo element expression => do let _ ← Markup.onExpression (Block.echo element expression)
  | .echoInline element expression => do
    let _ ← Markup.onExpression (Block.echoInline element expression)
  | .assign stateId element expression => do
    let _ ← Markup.onExpression (Block.assign stateId element expression)
  | .loop resultType component expression => do
    let _ ← Markup.onExpression (Block.loop resultType component expression)
  | .conditional element condition => do
    let _ ← Markup.onExpression (Block.conditional element condition)
  | .renderComponent resultType component content fallback => do
    let _ ← Markup.renderComponent resultType component content fallback
  | .renderTree resultType tree => do let _ ← Markup.renderTree resultType tree
  | .permalink settings slug body => do let _ ← FrontMatter.permalink settings slug body
  | .frontMatter options settings slug body collection lang => do
    let _ ← PagePress.frontMatter options settings slug body collection lang
  | .dataFile options dataSource query => do let _ ← PagePress.dataFile options dataSource query

theorem Compilation.accountable_step (compilation : Compilation) :
    Accountable compilation.step := by
  have hPure : ∀ {α : Type} {step : Pass PublishError α}, Accountable step →
      Accountable (do let _ ← step) := fun h => h.bind fun _ => Accountable.pure ()
  cases compilation with
  | freshVariable elementId => exact hPure (Accountable.freshVariable elementId)
  | assignment element expression =>
      exact hPure ((PagePress.accountable_assignment element expression).mapError _)
  | echo element expression => exact hPure ((Block.accountable_echo element expression).mapError _)
  | echoInline element expression =>
      exact hPure ((Block.accountable_echoInline element expression).mapError _)
  | assign stateId element expression =>
      exact hPure ((Block.accountable_assign stateId element expression).mapError _)
  | loop resultType component expression =>
      exact hPure ((Block.accountable_loop resultType component expression).mapError _)
  | conditional element condition =>
      exact hPure ((Block.accountable_conditional element condition).mapError _)
  | renderComponent resultType component content fallback =>
      exact hPure (Markup.accountable_renderComponent resultType component content fallback)
  | renderTree resultType tree => exact hPure (Markup.accountable_renderTree resultType tree)
  | permalink settings slug body =>
      exact hPure (FrontMatter.accountable_permalink settings slug body)
  | frontMatter options settings slug body collection lang =>
      exact hPure (accountable_frontMatter options settings slug body collection lang)
  | dataFile options dataSource query =>
      exact hPure (accountable_dataFile options dataSource query)

/-- What a context is used for: something is compiled in it, pages are assembled from files, or
pages are published. -/
inductive Operation
  | compile (compilation : Compilation)
  | assemble (host : Host) (options : Options) (pages : List Page) (files : List PublishedFile)
  | publish (host : Host) (options : Options) (pages : List Page)

namespace Operation

/-- The context after an operation, whether or not it failed. -/
def next : Operation → Context → Context
  | .compile compilation, context => (compilation.step.runIn context).2
  | .assemble host options pages files, context =>
    (Assembly.assemble host options pages ⟨context, files, []⟩).2.context
  | .publish host options pages, context => (publishPages host options pages context).2.context

/-- An operation hands out some names. Publishing assembles what it has rendered, unless rendering
failed or only the markup is wanted. -/
inductive HandsOut : Operation → Context → List String → Prop
  | compile {compilation : Compilation} {context : Context} {names : List String}
      (h : Pass.HandsOut compilation.step context names) :
      HandsOut (.compile compilation) context names
  | assemble {host : Host} {options : Options} {pages : List Page} {files : List PublishedFile}
      {context : Context} {names : List String}
      (h : AssemblyHandsOut host options pages ⟨context, files, []⟩ names) :
      HandsOut (.assemble host options pages files) context names
  | failed {host : Host} {options : Options} {pages : List Page} {context : Context}
      {names : List String} {work : Rendered} {error : PublishError}
      (hRun : renderPages host options pages ⟨⟨context, [], []⟩, []⟩ = (some error, work))
      (h : RenderingHandsOut host options pages context names) :
      HandsOut (.publish host options pages) context names
  | rendered {host : Host} {options : Options} {pages : List Page} {context : Context}
      {names : List String} {work : Rendered}
      (hRun : renderPages host options pages ⟨⟨context, [], []⟩, []⟩ = (none, work))
      (hDisabled : options.enabled = false)
      (h : RenderingHandsOut host options pages context names) :
      HandsOut (.publish host options pages) context names
  | published {host : Host} {options : Options} {pages : List Page} {context : Context}
      {names others : List String} {work : Rendered}
      (hRun : renderPages host options pages ⟨⟨context, [], []⟩, []⟩ = (none, work))
      (hEnabled : options.enabled = true)
      (h : RenderingHandsOut host options pages context names)
      (hOthers : AssemblyHandsOut host options work.pages work.draft others) :
      HandsOut (.publish host options pages) context (names ++ others)

theorem exists_handsOut (operation : Operation) (context : Context) :
    ∃ names, HandsOut operation context names := by
  cases operation with
  | compile compilation =>
      obtain ⟨names, h⟩ := compilation.accountable_step context
      exact ⟨names, .compile h⟩
  | assemble host options pages files =>
      obtain ⟨names, h⟩ := exists_walkHandsOut (exists_assembleHandsOut host options) pages
        ⟨context, files, []⟩
      exact ⟨names, .assemble h⟩
  | publish host options pages =>
      obtain ⟨names, h⟩ : ∃ names, RenderingHandsOut host options pages context names :=
        exists_walkHandsOut (exists_renderHandsOut host) pages _
      rcases hRun : renderPages host options pages ⟨⟨context, [], []⟩, []⟩ with ⟨_ | error, work⟩
      · cases hEnabled : options.enabled with
        | false => exact ⟨names, .rendered hRun hEnabled h⟩
        | true =>
            obtain ⟨others, hOthers⟩ := exists_walkHandsOut
              (exists_assembleHandsOut host options) work.pages work.draft
            exact ⟨names ++ others, .published hRun hEnabled h hOthers⟩
      · exact ⟨names, .failed hRun h⟩

/-- The names of an operation are numbered from the counter that it found up to the one that it
leaves. -/
theorem HandsOut.numbered {operation : Operation} {context : Context}
    (h : HandsOut operation context names) :
    Numbered context.nextVariable names (operation.next context).nextVariable := by
  cases h with
  | compile h => exact h.numbered
  | assemble h => exact h.numbered
  | failed hRun h =>
      have hNumbered := h.numbered
      rw [hRun] at hNumbered
      simp only [next, publishPages, hRun]
      exact hNumbered
  | rendered hRun hDisabled h =>
      have hNumbered := h.numbered
      rw [hRun] at hNumbered
      simp only [next, publishPages, hRun, hDisabled, Bool.false_eq_true, ↓reduceIte]
      exact hNumbered
  | published hRun hEnabled h hOthers =>
      have hNumbered := h.numbered
      rw [hRun] at hNumbered
      simp only [next, publishPages, hRun, hEnabled, ↓reduceIte]
      exact hNumbered.append hOthers.numbered

end Operation

/-! ## Sessions -/

/-- Operations in one context hand out what each hands out in the context that was left before. -/
inductive SessionHandsOut : List Operation → Context → List String → Prop
  | nil (context : Context) : SessionHandsOut [] context []
  | cons {operation : Operation} {operations : List Operation} {context : Context}
      {names others : List String} (h : operation.HandsOut context names)
      (hRest : SessionHandsOut operations (operation.next context) others) :
      SessionHandsOut (operation :: operations) context (names ++ others)

theorem exists_sessionHandsOut (operations : List Operation) : ∀ context,
    ∃ names, SessionHandsOut operations context names := by
  induction operations with
  | nil => exact fun context => ⟨[], .nil context⟩
  | cons operation operations ih =>
      intro context
      obtain ⟨names, h⟩ := operation.exists_handsOut context
      obtain ⟨others, hRest⟩ := ih (operation.next context)
      exact ⟨names ++ others, .cons h hRest⟩

theorem SessionHandsOut.numbered {operations : List Operation} {context : Context}
    (h : SessionHandsOut operations context names) :
    ∃ next, Numbered context.nextVariable names next := by
  induction h with
  | nil context => exact ⟨context.nextVariable, .nil _⟩
  | cons h _ ih =>
      obtain ⟨next, hNumbered⟩ := ih
      exact ⟨next, h.numbered.append hNumbered⟩

/-- Names never repeat: every session has a record of the names that it hands out, and in every
record the names are distinct and none is that of a published state. -/
theorem session_names_distinct (operations : List Operation) (context : Context) :
    (∃ names, SessionHandsOut operations context names) ∧
      ∀ names, SessionHandsOut operations context names →
        names.Nodup ∧ ∀ persistentId stateId, stateVariable persistentId stateId ∉ names := by
  refine ⟨exists_sessionHandsOut operations context, ?_⟩
  intro names h
  obtain ⟨next, hNumbered⟩ := h.numbered
  exact ⟨hNumbered.nodup, hNumbered.stateVariable_not_mem⟩

/-- A session for elements whose ids look like one another with numbers, with a failure. -/
def similarIds : List Operation :=
  [.compile (.freshVariable "a"), .compile (.echo { id := "a" } []),
    .compile (.freshVariable "a_1"), .compile (.freshVariable "a")]

theorem similarIds_names_distinct :
    SessionHandsOut similarIds (Context.start {} 0 []) ["var_a_0", "var_a_1_1", "var_a_2"] ∧
      ["var_a_0", "var_a_1_1", "var_a_2"].Nodup ∧
      stateVariable "a" "1" ∉ ["var_a_0", "var_a_1_1", "var_a_2"] := by
  have hFresh : ∀ elementId context, (Operation.compile (.freshVariable elementId)).HandsOut
      context [variableName elementId context.nextVariable] := fun elementId context =>
    .compile (.sequence (run_freshVariable elementId context)
      (.fresh (run_freshVariable elementId context)) (.result (.ok ()) _))
  have hFailed : ∀ context,
      (Operation.compile (.echo { id := "a" } [])).HandsOut context [] := fun context =>
    .compile (.failed rfl (.mapError _ (.failed rfl (.failed rfl (.result _ context)))))
  have hSession : SessionHandsOut similarIds (Context.start {} 0 [])
      ["var_a_0", "var_a_1_1", "var_a_2"] :=
    .cons (hFresh "a" _) (.cons (hFailed _) (.cons (hFresh "a_1" _) (.cons (hFresh "a" _)
      (.nil _))))
  obtain ⟨hNodup, hStates⟩ := (session_names_distinct similarIds _).2 _ hSession
  exact ⟨hSession, hNodup, hStates "a" "1"⟩

end PagePress
