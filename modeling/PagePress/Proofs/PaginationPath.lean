import PagePress.Proofs.Grammar
import PagePress.Proofs.StoredText

/-!
# Pagination paths

The data of a collection page is named twice. The front matter has the path of its pagination for
the generator, from the stored text of the setting, and a binding of the same expression has the
path in a statement. Each of the two puts the data source in front of the fields by itself, and they
differ for one data source: for the one whose id is empty the statement has no receiver, while the
pagination starts with a dot.

## Main results

* `paginationData_of_read` — the pagination of a page whose setting holds properties.
* `run_assignment_properties` — the statement of properties.
* `paginationData_assigned_iff` — when the statement assigns the path of the pagination.
-/

namespace PagePress

open FrontMatter

/-! ## Fields behind a data source -/

/-- The fields of properties as a path. -/
def Property.fieldPath (properties : List Property) : String :=
  ".".intercalate (properties.map Property.fieldId)

/-- A data source in front of the path of the pagination. -/
def sourcePrefix : Option String → String
  | some source => source ++ "."
  | none => ""

/-- The two ways to put a data source in front differ for the empty id only. -/
theorem receiverPrefix_eq_iff (source : Option String) :
    Expression.receiverPrefix (source.getD "") = sourcePrefix source ↔ source ≠ some "" := by
  cases source with
  | none => decide
  | some id =>
      rw [Option.getD_some, Expression.receiverPrefix, sourcePrefix, Ne, Option.some_inj]
      split
      · rename_i hEmpty
        rw [String.isEmpty_iff.1 hEmpty]
        decide
      · rename_i hSome
        exact iff_of_true rfl fun hEmpty => hSome (hEmpty ▸ rfl)

variable {p : Property} {path : List Property}

/-- The steps of properties that are not fixed are their fields. -/
theorem propertySteps_eq (hUnfixed : ∀ q ∈ p :: path, q.isFixed = false) :
    ".".intercalate (Expression.headStep (.property p) :: path.map Expression.propertyStep) =
      Property.fieldPath (p :: path) := by
  have hStep : ∀ q ∈ p :: path, Expression.propertyStep q = q.fieldId := by
    intro q hq
    simp [Expression.propertyStep, hUnfixed q hq]
  rw [Property.fieldPath, ← List.map_congr_left hStep]
  rfl

/-- Properties are the chain of the first one, without filters. -/
theorem map_property_eq_chain (p : Property) (path : List Property) :
    (p :: path).map Token.property = Expression.chain (.property p) path [] := by
  rw [Expression.chain, List.map_nil, List.append_nil, List.map_cons]

theorem check_properties (p : Property) (path : List Property) :
    Expression.check ((p :: path).map .property) = .ok () :=
  (Expression.check_eq_ok_iff _).2 ⟨.property p, path, [], rfl, map_property_eq_chain p path⟩

/-! ## The two readings -/

theorem paginationPath_properties (options : Options)
    (hUnfixed : ∀ q ∈ p :: path, q.isFixed = false) :
    paginationPath options ((p :: path).map .property) =
      .ok (sourcePrefix (Expression.source? options.globalSources ((p :: path).map .property)) ++
        Property.fieldPath (p :: path)) := by
  have hTokens : ((p :: path).map Token.property).all isPathToken = true := by
    rw [List.all_map, List.all_eq_true]
    intro q hq
    simp [isPathToken, hUnfixed q hq]
  have hSteps : Expression.path ((p :: path).map .property) =
      .ok (Property.fieldPath (p :: path)) := by
    rw [← propertySteps_eq hUnfixed, Expression.path, List.map_cons,
      Expression.pathSteps_properties rfl]
    rfl
  rw [paginationPath, hTokens, hSteps]
  cases Expression.source? options.globalSources ((p :: path).map .property) with
  | none => exact congrArg Except.ok (String.empty_append).symm
  | some source => rfl

/-- The pagination of a page is the fields of its properties behind their data source. -/
theorem paginationData_of_read (options : Options) {settings : PageSettings} {raw : String}
    (hRaw : settings.pageData = some raw)
    (hRead : Expression.read (Text.trim raw) = .ok ((p :: path).map .property))
    (hUnfixed : ∀ q ∈ p :: path, q.isFixed = false) :
    paginationData options settings =
      .ok (some (sourcePrefix
        (Expression.source? options.globalSources ((p :: path).map .property)) ++
          Property.fieldPath (p :: path))) := by
  rw [paginationData_of_parse options hRaw (parseSetting_of_read hRead (check_properties p path))]
  simp only [paginationPath_properties options hUnfixed]
  rfl

/-- The statement of properties assigns their fields behind their data source. -/
theorem run_assignment_properties (element : Element) (context : Context)
    (hUnfixed : ∀ q ∈ p :: path, q.isFixed = false) :
    (assignment element ((p :: path).map .property)).runIn context =
      (.ok ⟨variableName element.id context.nextVariable,
          "assign " ++ variableName element.id context.nextVariable ++ " = " ++
            (Expression.receiverPrefix ((Expression.source? context.globalSources
              ((p :: path).map .property)).getD "") ++ Property.fieldPath (p :: path))⟩,
        { context with nextVariable := context.nextVariable + 1 }) := by
  rw [map_property_eq_chain, run_assignment_of_ok element rfl, Expression.chainStatement,
    propertySteps_eq hUnfixed, Expression.filterChain_nil, String.append_empty, String.append_assoc]
  rfl

/-- The data source of properties is the one without a name. -/
theorem source?_eq_empty_iff (globalSources : List String) (hFirst : p.isFixed = false) :
    Expression.source? globalSources ((p :: path).map .property) = some "" ↔
      p.dataSourceId = some "" ∧ "" ∉ globalSources := by
  rw [List.map_cons, Expression.source?, if_neg (by simp [hFirst]), Option.filter_eq_some_iff]
  simp

/-- A binding and the pagination of a page read the same data when the first property does not name
a data source with an empty id. With such an id, unless it is a global one, the statement assigns
the fields alone, and the pagination has a dot in front of them. -/
theorem paginationData_assigned_iff (options : Options) {context : Context}
    (hContext : context.globalSources = options.globalSources) (element : Element)
    (p : Property) (path : List Property) (hUnfixed : ∀ q ∈ p :: path, q.isFixed = false)
    {settings : PageSettings} {raw : String} (hRaw : settings.pageData = some raw)
    (hText : Json.read (Text.trim raw) = .ok (Expression.toJson ((p :: path).map .property))) :
    ∃ data statement next, paginationData options settings = .ok (some data) ∧
      (assignment element ((p :: path).map .property)).runIn context = (.ok statement, next) ∧
      statement.variableName = variableName element.id context.nextVariable ∧
      (statement.source = "assign " ++ statement.variableName ++ " = " ++ data ↔
        ¬ (p.dataSourceId = some "" ∧ "" ∉ options.globalSources)) ∧
      (p.dataSourceId = some "" ∧ "" ∉ options.globalSources →
        data = "." ++ Property.fieldPath (p :: path) ∧
        statement.source = "assign " ++ statement.variableName ++ " = " ++
          Property.fieldPath (p :: path)) := by
  refine ⟨_, _, _, paginationData_of_read options hRaw (Expression.read_of_text hText) hUnfixed,
    run_assignment_properties element context hUnfixed, rfl, ?_, ?_⟩
  · rw [hContext, ← source?_eq_empty_iff options.globalSources (hUnfixed p List.mem_cons_self),
      String.append_right_inj, String.append_left_inj, receiverPrefix_eq_iff]
  · intro hNameless
    have hSource : Expression.source? options.globalSources ((p :: path).map .property) = some "" :=
      (source?_eq_empty_iff options.globalSources (hUnfixed p List.mem_cons_self)).2 hNameless
    have hReceiver : Expression.receiverPrefix "" = "" := rfl
    rw [hContext, hSource]
    refine ⟨rfl, ?_⟩
    rw [Option.getD_some, hReceiver, String.empty_append]

/-- The posts of a data source. -/
def postsOf (source : String) : Property := ⟨"posts", "", some source, [], .list, none⟩

/-- The stored text of these posts. -/
def postsText (source : String) : String :=
  (Expression.toJson ([postsOf source].map .property)).compact

set_option maxRecDepth 8000 in
/-- The posts of two data sources are read from their text. -/
theorem read_postsText (source : String) (h : source ∈ ["cms", ""]) :
    Json.read (Text.trim (postsText source)) =
      .ok (Expression.toJson ([postsOf source].map .property)) := by
  rcases List.mem_pair.1 h with rfl | rfl
  · with_unfolding_all rfl
  · with_unfolding_all rfl

/-- The posts of a data source with a name are bound and paginated by one path. -/
theorem cmsPosts_assigned :
    Json.read (Text.trim (postsText "cms")) =
        .ok (Expression.toJson ([postsOf "cms"].map .property)) ∧
      ∃ statement next,
        paginationData {} { pageData := some (postsText "cms") } = .ok (some "cms.posts") ∧
        (assignment { id := "c1" } ([postsOf "cms"].map .property)).runIn (Context.start {} 0 []) =
          (.ok statement, next) ∧
        statement.source = "assign var_c1_0 = cms.posts" := by
  have hText := read_postsText "cms" (by decide)
  have hUnfixed : ∀ q ∈ [postsOf "cms"], q.isFixed = false := by decide
  have hRaw : ({ pageData := some (postsText "cms") } : PageSettings).pageData =
      some (postsText "cms") := rfl
  have hGlobal : (Context.start {} 0 []).globalSources = ({} : Options).globalSources := rfl
  obtain ⟨data, statement, next, hData, hRun, hVariable, hSame, -⟩ :=
    paginationData_assigned_iff {} hGlobal { id := "c1" } (postsOf "cms") [] hUnfixed hRaw hText
  have hPath : data = "cms.posts" := by
    have hOwn := paginationData_of_read {} hRaw (Expression.read_of_text hText) hUnfixed
    exact (Option.some.inj (Except.ok.inj (hOwn.symm.trans hData))).symm
  subst hPath
  refine ⟨hText, statement, next, hData, hRun, ?_⟩
  rw [hSame.2 (by decide), hVariable]
  rfl

/-- The posts of a data source with an empty id are bound by their field, and paginated by a path
that starts with a dot. -/
theorem paginationData_not_assigned :
    ¬ ∀ (options : Options) (context : Context) (element : Element) (p : Property)
        (path : List Property) (settings : PageSettings) (raw data : String)
        (statement : Statement) (next : Context),
      context.globalSources = options.globalSources → (∀ q ∈ p :: path, q.isFixed = false) →
      settings.pageData = some raw →
      Json.read (Text.trim raw) = .ok (Expression.toJson ((p :: path).map .property)) →
      paginationData options settings = .ok (some data) →
      (assignment element ((p :: path).map .property)).runIn context = (.ok statement, next) →
      statement.source = "assign " ++ statement.variableName ++ " = " ++ data := by
  intro h
  have hText := read_postsText "" (by decide)
  have hUnfixed : ∀ q ∈ [postsOf ""], q.isFixed = false := by decide
  have hSame := h {} (Context.start {} 0 []) { id := "c1" } (postsOf "") []
    { pageData := some (postsText "") } _ _ _ _ rfl hUnfixed rfl hText
    (paginationData_of_read {} rfl (Expression.read_of_text hText) hUnfixed)
    (run_assignment_properties _ _ hUnfixed)
  exact absurd hSame (by decide)

end PagePress
