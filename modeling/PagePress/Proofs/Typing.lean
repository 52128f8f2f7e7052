import Mathlib.Data.List.Induction
import Mathlib.Logic.Relation
import PagePress.Publication.Host

/-!
# Typing rules

The rules by which an expression has a field, apart from any search for it. They say what each token
makes of the field so far; a state whose shape is not forced has the field of the expression that it
leads to. A derivation has a depth, the number of states that it looks up inside each other, so it
is finite whatever the states refer to.

The shapes that filters give are a table of their own: many filters give one shape whatever comes
before them, those that pick an item make an object of a list, and all others keep the shape.

The search finds what has a derivation of a depth up to its bound, and nothing else. It cannot find
a field for an expression that leads back to itself: all of its states must have fields, by
derivations of smaller and smaller depth.

## Main results

* `filteredKind_eq_iff` — the shapes that filters give, by their names.
* `stateField?_eq_some` — what the search knows of a state is what the rules look up.
* `resolve_of_typed`, `typed_of_resolve` — the search is complete up to its depth, and sound.
* `resultType_typed` — result types are those that the rules derive with sixteen look-ups.
-/

namespace PagePress

/-! ## Document order -/

namespace Component

mutual

/-- The components of a tree, parents before children and siblings in order. -/
def preorder : Component → List Component
  | node element children => node element children :: preorderAll children

/-- The components of trees, one tree after the other. -/
def preorderAll : List Component → List Component
  | [] => []
  | tree :: trees => preorder tree ++ preorderAll trees

end

mutual

theorem find?_eq_preorder (persistentId : String) (tree : Component) :
    find? persistentId tree =
      tree.preorder.find? fun c => c.element.persistentId = some persistentId := by
  cases tree with
  | node element children =>
      rw [find?, preorder, List.find?_cons, findIn?_eq_preorderAll]
      by_cases hId : element.persistentId = some persistentId
      · simp [Component.element, hId]
      · simp [Component.element, hId]

theorem findIn?_eq_preorderAll (persistentId : String) (trees : List Component) :
    findIn? persistentId trees =
      (preorderAll trees).find? fun c => c.element.persistentId = some persistentId := by
  cases trees with
  | nil => rfl
  | cons tree trees =>
      rw [findIn?, preorderAll, List.find?_append, find?_eq_preorder, findIn?_eq_preorderAll]

end

end Component

/-! ## Filters -/

/-- A filter that is known by its name gives a shape. -/
inductive Reshapes : String → Kind → Kind → Prop
  | item {filterId : String} (hName : filterId ∈ ["first", "last"]) :
      Reshapes filterId .list .object
  | scalar {filterId : String} (before : Kind)
      (hName : filterId ∈ ["size", "join", "json", "date", "strip_html"]) :
      Reshapes filterId before .scalar
  | list {filterId : String} (before : Kind)
      (hName : filterId ∈ ["where", "where_exp", "sort", "sort_natural", "reverse", "uniq",
        "compact", "map", "concat", "split"]) :
      Reshapes filterId before .list

/-- The shape after a filter: the one that it gives, or else the one before it. -/
inductive FilterKind (filterId : String) (before : Kind) : Kind → Prop
  | reshaped {after : Kind} (hShape : Reshapes filterId before after) :
      FilterKind filterId before after
  | kept (hOther : ∀ after, ¬ Reshapes filterId before after) : FilterKind filterId before before

theorem filteredKind_of_reshapes {filterId : String} {before after : Kind}
    (h : Reshapes filterId before after) : filteredKind filterId before = after := by
  cases h with
  | item hName =>
      simp only [List.mem_cons, List.not_mem_nil, or_false] at hName
      rcases hName with rfl | rfl <;> rfl
  | scalar _ hName =>
      simp only [List.mem_cons, List.not_mem_nil, or_false] at hName
      rcases hName with rfl | rfl | rfl | rfl | rfl <;> rfl
  | list _ hName =>
      simp only [List.mem_cons, List.not_mem_nil, or_false] at hName
      rcases hName with rfl | rfl | rfl | rfl | rfl | rfl | rfl | rfl | rfl | rfl <;> rfl

theorem filteredKind_of_not_reshapes {filterId : String} {before : Kind}
    (h : ∀ after, ¬ Reshapes filterId before after) : filteredKind filterId before = before := by
  unfold filteredKind
  split_ifs with hItem hScalar hList
  · obtain ⟨hName, rfl⟩ : filterId ∈ itemFilters ∧ before = .list := by simpa using hItem
    exact absurd (.item hName) (h .object)
  · exact absurd (.scalar before (List.contains_iff_mem.1 hScalar)) (h .scalar)
  · exact absurd (.list before (List.contains_iff_mem.1 hList)) (h .list)
  · rfl

/-- The search gives the shape of the table. -/
theorem filteredKind_eq_iff {filterId : String} {before after : Kind} :
    filteredKind filterId before = after ↔ FilterKind filterId before after := by
  constructor
  · rintro rfl
    by_cases hShape : ∃ after, Reshapes filterId before after
    · obtain ⟨after, hShape⟩ := hShape
      rw [filteredKind_of_reshapes hShape]
      exact .reshaped hShape
    · have hOther : ∀ after, ¬ Reshapes filterId before after := not_exists.1 hShape
      rw [filteredKind_of_not_reshapes hOther]
      exact .kept hOther
  · intro h
    cases h with
    | reshaped hShape => exact filteredKind_of_reshapes hShape
    | kept hOther => exact filteredKind_of_not_reshapes hOther

namespace Site

/-- The components of a site in document order: page by page, parents before children. -/
def components (site : Site) : List Component :=
  site.pages.flatMap fun page => page.component.preorder

/-- The first component in document order with a persistent id. -/
def IsFirst (site : Site) (persistentId : String) (component : Component) : Prop :=
  (site.components.find? fun c => c.element.persistentId = some persistentId) = some component

theorem component?_eq_some {site : Site} {persistentId : String} {component : Component} :
    site.component? persistentId = some component ↔ site.IsFirst persistentId component := by
  unfold component? IsFirst components
  simp only [Component.find?_eq_preorder, List.find?_flatMap]

/-! ## Rules -/

/-- The state that a reference leads to, in the first component with its persistent id: the private
state of a loop for the loop's item, and for any other the public state with its id, or the private
one when there is no such public state. -/
inductive LeadsTo (site : Site) (s : StateRef) : StoredState → Prop
  | loop {component : Component} {state : StoredState}
      (hFirst : site.IsFirst s.componentId component)
      (hLoop : s.storedStateId = "__data")
      (hState : (component.element.privateStates.find? fun own => own.id = "__data") = some state) :
      LeadsTo site s state
  | published {component : Component} {state : StoredState}
      (hFirst : site.IsFirst s.componentId component)
      (hOther : s.storedStateId ≠ "__data")
      (hState : (component.element.publicStates.find? fun shown => shown.id = s.storedStateId) =
        some state) :
      LeadsTo site s state
  | own {component : Component} {state : StoredState}
      (hFirst : site.IsFirst s.componentId component)
      (hOther : s.storedStateId ≠ "__data")
      (hNone : (component.element.publicStates.find? fun shown => shown.id = s.storedStateId) =
        none)
      (hState : (component.element.privateStates.find? fun own => own.id = s.storedStateId) =
        some state) :
      LeadsTo site s state

mutual

/-- The field that a token makes of the field before it, by a derivation of a depth. -/
inductive TypedToken (site : Site) : Nat → Option Field → Token → Field → Prop
  | property (before : Option Field) (p : Property) :
      TypedToken site 0 before (.property p)
        ⟨p.fieldId, p.label, p.typeIds, p.kind, p.dataSourceId⟩
  | forced (before : Option Field) {s : StateRef} {kind : Kind}
      (hForced : s.forceKind = some kind) :
      TypedToken site 0 before (.state s)
        ⟨s.storedStateId, s.label.getD s.storedStateId, [], kind, none⟩
  | item (before : Option Field) {s : StateRef} {state : StoredState} {depth : Nat} {field : Field}
      (hFree : s.forceKind = none) (hLoop : s.storedStateId = "__data")
      (hLeads : site.LeadsTo s state) (hTyped : Typed site depth state.expression field) :
      TypedToken site (depth + 1) before (.state s) { field with kind := .object }
  | looked (before : Option Field) {s : StateRef} {state : StoredState} {depth : Nat}
      {field : Field} (hFree : s.forceKind = none) (hOther : s.storedStateId ≠ "__data")
      (hLeads : site.LeadsTo s state) (hTyped : Typed site depth state.expression field) :
      TypedToken site (depth + 1) before (.state s) field
  | filter {before : Field} {f : Filter} {kind : Kind}
      (hKind : FilterKind f.id before.kind kind) :
      TypedToken site 0 (some before) (.filter f) { before with kind := kind }

/-- The field that an expression has, by a derivation of a depth: token by token, the last one gives
it, and no token may be without a field. -/
inductive Typed (site : Site) : Nat → Expression → Field → Prop
  | first {depth : Nat} {token : Token} {field : Field}
      (hToken : TypedToken site depth none token field) : Typed site depth [token] field
  | next {depth last : Nat} {before : Expression} {token : Token} {current field : Field}
      (hBefore : Typed site depth before current)
      (hToken : TypedToken site last (some current) token field) :
      Typed site (max depth last) (before ++ [token]) field

end

/-! ## Look-ups -/

variable {site : Site} {s : StateRef}

/-- The state that the search looks up for a reference. -/
def state? (site : Site) (s : StateRef) : Option StoredState :=
  (site.component? s.componentId).bind fun component =>
    if s.storedStateId = "__data" then
      component.element.privateStates.find? fun own => own.id = "__data"
    else (component.element.publicStates.find? fun shown => shown.id = s.storedStateId).or
      (component.element.privateStates.find? fun own => own.id = s.storedStateId)

/-- The search looks up the state that a reference leads to. -/
theorem state?_eq_some {state : StoredState} :
    site.state? s = some state ↔ site.LeadsTo s state := by
  unfold state?
  rw [Option.bind_eq_some_iff]
  simp only [component?_eq_some]
  constructor
  · rintro ⟨component, hFirst, hState⟩
    by_cases hLoop : s.storedStateId = "__data"
    · rw [if_pos hLoop] at hState
      exact .loop hFirst hLoop hState
    · rw [if_neg hLoop, Option.or_eq_some_iff] at hState
      rcases hState with hState | ⟨hNone, hState⟩
      · exact .published hFirst hLoop hState
      · exact .own hFirst hLoop hNone hState
  · intro hLeads
    cases hLeads with
    | loop hFirst hLoop hState => exact ⟨_, hFirst, by rw [if_pos hLoop, hState]⟩
    | published hFirst hOther hState =>
        exact ⟨_, hFirst, by rw [if_neg hOther, hState, Option.some_or]⟩
    | own hFirst hOther hNone hState =>
        exact ⟨_, hFirst, by rw [if_neg hOther, hNone, hState, Option.none_or]⟩

/-- A reference leads to one state only. -/
theorem LeadsTo.unique {state other : StoredState} (h : site.LeadsTo s state)
    (hOther : site.LeadsTo s other) : state = other :=
  Option.some.inj ((state?_eq_some.2 h).symm.trans (state?_eq_some.2 hOther))

/-- What is seen of the field of a state: the item of a loop is an object. -/
def seenAs (s : StateRef) (field : Field) : Field :=
  if s.storedStateId = "__data" then { field with kind := .object } else field

theorem stateField?_eq (resolve : Expression → Option Field) :
    site.stateField? resolve s =
      (site.state? s).bind fun state => (resolve state.expression).map (seenAs s) := by
  unfold stateField? state? seenAs publishedExpression? Block.loopState
  cases site.component? s.componentId with
  | none => rfl
  | some component =>
      by_cases hLoop : s.storedStateId = "__data"
      · simp only [hLoop, ↓reduceIte, Option.bind_eq_bind, Option.bind_some, Option.map_eq_bind]
        rfl
      · simp only [hLoop, ↓reduceIte, Option.bind_eq_bind, Option.bind_some, Option.map_id_fun',
          id_eq, Option.bind_map, Function.comp_def]
        rfl

/-- A state has the field of the expression that it leads to. -/
theorem stateField?_eq_some {resolve : Expression → Option Field} {field : Field} :
    site.stateField? resolve s = some field ↔
      ∃ state found, site.LeadsTo s state ∧ resolve state.expression = some found ∧
        seenAs s found = field := by
  rw [stateField?_eq, Option.bind_eq_some_iff]
  simp only [state?_eq_some, Option.map_eq_some_iff, exists_and_left]

/-! ## Completeness -/

mutual

/-- The search gives every token the field of the rules, when it may look up as deep as they do. -/
theorem fieldAfterToken_of_typed {depth : Nat} {before : Option Field} {token : Token}
    {field : Field} (h : site.TypedToken depth before token field) (fuel : Nat)
    (hDepth : depth ≤ fuel) :
    fieldAfterToken (site.stateField? (site.resolve fuel)) before token = some field :=
  match h with
  | .property _ p => rfl
  | .forced _ hForced => by simp [fieldAfterToken, hForced, StateRef.forcedField, Token.label]
  | .item _ hFree hLoop hLeads hTyped => by
      have hFound := resolve_of_typed hTyped fuel hDepth
      simp only [fieldAfterToken, hFree]
      exact stateField?_eq_some.2 ⟨_, _, hLeads, hFound, by simp [seenAs, hLoop]⟩
  | .looked _ hFree hOther hLeads hTyped => by
      have hFound := resolve_of_typed hTyped fuel hDepth
      simp only [fieldAfterToken, hFree]
      exact stateField?_eq_some.2 ⟨_, _, hLeads, hFound, by simp [seenAs, hOther]⟩
  | .filter hKind => by rw [fieldAfterToken, Option.map_some, filteredKind_eq_iff.2 hKind]

/-- The search finds the field of a derivation that is not too deep. -/
theorem resolve_of_typed {depth : Nat} {expression : Expression} {field : Field}
    (h : site.Typed depth expression field) (fuel : Nat) (hDepth : depth + 1 ≤ fuel) :
    site.resolve fuel expression = some field :=
  match h with
  | .first hToken => by
      obtain ⟨fuel, rfl⟩ : ∃ less, fuel = less + 1 := ⟨fuel - 1, by omega⟩
      have hField := fieldAfterToken_of_typed hToken fuel (by omega)
      rw [resolve, fieldAfter, hField]
      rfl
  | @Typed.next _ _ _ before _ _ _ hBefore hToken => by
      have hCurrent := resolve_of_typed hBefore fuel (by omega)
      obtain ⟨fuel, rfl⟩ : ∃ less, fuel = less + 1 := ⟨fuel - 1, by omega⟩
      have hField := fieldAfterToken_of_typed hToken fuel (by omega)
      have hNonempty : before ≠ [] := by
        rintro rfl
        cases hCurrent
      rw [resolve] at hCurrent ⊢
      rw [fieldAfter_append _ _ _ _ hNonempty, hCurrent, Option.bind_some, fieldAfter, hField]
      rfl

end

/-! ## Soundness -/

/-- What the search makes of a token follows from the rules, when what it looks up does. -/
theorem typedToken_of_fieldAfterToken {fuel : Nat} {resolve : Expression → Option Field}
    (hResolve : ∀ expression field, resolve expression = some field →
      ∃ depth < fuel, site.Typed depth expression field)
    {before : Option Field} {token : Token} {field : Field}
    (h : fieldAfterToken (site.stateField? resolve) before token = some field) :
    ∃ depth ≤ fuel, site.TypedToken depth before token field := by
  cases token with
  | property p =>
      cases h
      exact ⟨0, Nat.zero_le _, .property before p⟩
  | filter f =>
      obtain ⟨current, rfl, rfl⟩ := Option.map_eq_some_iff.1 h
      exact ⟨0, Nat.zero_le _, .filter (filteredKind_eq_iff.1 rfl)⟩
  | state s =>
      cases hKind : s.forceKind with
      | some kind =>
          simp only [fieldAfterToken, hKind] at h
          cases h
          exact ⟨0, Nat.zero_le _, .forced before hKind⟩
      | none =>
          simp only [fieldAfterToken, hKind] at h
          obtain ⟨state, found, hLeads, hFound, rfl⟩ := stateField?_eq_some.1 h
          obtain ⟨depth, hDepth, hTyped⟩ := hResolve _ _ hFound
          refine ⟨depth + 1, hDepth, ?_⟩
          by_cases hLoop : s.storedStateId = "__data"
          · rw [seenAs, if_pos hLoop]
            exact .item before hKind hLoop hLeads hTyped
          · rw [seenAs, if_neg hLoop]
            exact .looked before hKind hLoop hLeads hTyped

/-- What the search makes of tokens in a row follows from the rules, when what it looks up does. -/
theorem typed_of_fieldAfter {fuel : Nat} {resolve : Expression → Option Field}
    (hResolve : ∀ expression field, resolve expression = some field →
      ∃ depth < fuel, site.Typed depth expression field) (expression : Expression) :
    ∀ {field : Field}, fieldAfter (site.stateField? resolve) none expression = some field →
      ∃ depth ≤ fuel, site.Typed depth expression field := by
  induction expression using List.reverseRecOn with
  | nil =>
      intro field h
      cases h
  | append_singleton before token ih =>
      intro field h
      have hLast : ∀ {current : Option Field},
          fieldAfter (site.stateField? resolve) current [token] = some field →
            ∃ depth ≤ fuel, site.TypedToken depth current token field := by
        intro current hField
        apply typedToken_of_fieldAfterToken hResolve
        rw [← hField, fieldAfter]
        cases fieldAfterToken (site.stateField? resolve) current token <;> rfl
      cases before with
      | nil =>
          obtain ⟨depth, hDepth, hToken⟩ := hLast h
          exact ⟨depth, hDepth, .first hToken⟩
      | cons first rest =>
          rw [fieldAfter_append _ _ _ _ (by simp), Option.bind_eq_some_iff] at h
          obtain ⟨current, hCurrent, hField⟩ := h
          obtain ⟨depth, hDepth, hTyped⟩ := ih hCurrent
          obtain ⟨last, hLastDepth, hToken⟩ := hLast hField
          exact ⟨max depth last, Nat.max_le.2 ⟨hDepth, hLastDepth⟩, .next hTyped hToken⟩

/-- What the search finds has a derivation that is less deep than its fuel. -/
theorem typed_of_resolve (fuel : Nat) : ∀ {expression : Expression} {field : Field},
    site.resolve fuel expression = some field →
      ∃ depth < fuel, site.Typed depth expression field := by
  induction fuel with
  | zero =>
      intro expression field h
      cases h
  | succ fuel ih =>
      intro expression field h
      rw [resolve] at h
      obtain ⟨depth, hDepth, hTyped⟩ := typed_of_fieldAfter (fun _ _ => ih) expression h
      exact ⟨depth, Nat.lt_succ_of_le hDepth, hTyped⟩

/-- More fuel changes no field that was found. -/
theorem resolve_mono {fuel more : Nat} (hMore : fuel ≤ more) {expression : Expression}
    {field : Field} (h : site.resolve fuel expression = some field) :
    site.resolve more expression = some field := by
  obtain ⟨depth, hDepth, hTyped⟩ := typed_of_resolve fuel h
  exact resolve_of_typed hTyped more (Nat.le_trans hDepth hMore)

/-! ## Circles of references -/

/-- An expression refers to another one: a state in it, its shape not forced, leads there. -/
def Refers (site : Site) (expression other : Expression) : Prop :=
  ∃ s state, Token.state s ∈ expression ∧ s.forceKind = none ∧ site.LeadsTo s state ∧
    state.expression = other

/-- References lead from an expression into a circle. -/
def ReachesCircle (site : Site) (expression : Expression) : Prop :=
  ∃ other, Relation.ReflTransGen site.Refers expression other ∧
    Relation.TransGen site.Refers other other

/-- A state with a field by the rules leads to an expression with a field, one look-up less deep. -/
theorem TypedToken.leadsTo {depth : Nat} {before : Option Field} {field : Field}
    {state : StoredState} (h : site.TypedToken depth before (.state s) field)
    (hFree : s.forceKind = none) (hLeads : site.LeadsTo s state) :
    ∃ less < depth, ∃ found, site.Typed less state.expression found := by
  cases h with
  | forced _ hForced =>
      rw [hFree] at hForced
      cases hForced
  | item _ _ _ hLeads' hTyped =>
      obtain rfl := hLeads.unique hLeads'
      exact ⟨_, Nat.lt_succ_self _, _, hTyped⟩
  | looked _ _ _ hLeads' hTyped =>
      obtain rfl := hLeads.unique hLeads'
      exact ⟨_, Nat.lt_succ_self _, _, hTyped⟩

/-- What an expression with a field refers to has a field, by a less deep derivation. -/
theorem Typed.refers {depth : Nat} {expression other : Expression} {field : Field}
    (h : site.Typed depth expression field) (hRefers : site.Refers expression other) :
    ∃ less < depth, ∃ found, site.Typed less other found := by
  obtain ⟨s, state, hMem, hFree, hLeads, rfl⟩ := hRefers
  match h with
  | .first hToken =>
      obtain rfl := List.mem_singleton.1 hMem
      exact hToken.leadsTo hFree hLeads
  | .next hBefore hToken =>
      rcases List.mem_append.1 hMem with hMem | hMem
      · obtain ⟨less, hLess, hFound⟩ :=
          Typed.refers hBefore ⟨s, state, hMem, hFree, hLeads, rfl⟩
        exact ⟨less, Nat.lt_of_lt_of_le hLess (Nat.le_max_left _ _), hFound⟩
      · obtain rfl := List.mem_singleton.1 hMem
        obtain ⟨less, hLess, hFound⟩ := hToken.leadsTo hFree hLeads
        exact ⟨less, Nat.lt_of_lt_of_le hLess (Nat.le_max_right _ _), hFound⟩

theorem Typed.transGen_refers {depth : Nat} {expression other : Expression} {field : Field}
    (h : site.Typed depth expression field)
    (hPath : Relation.TransGen site.Refers expression other) :
    ∃ less < depth, ∃ found, site.Typed less other found := by
  induction hPath with
  | single hRefers => exact h.refers hRefers
  | tail _ hRefers ih =>
      obtain ⟨less, hLess, _, hTyped⟩ := ih
      obtain ⟨least, hLeast, hFound⟩ := hTyped.refers hRefers
      exact ⟨least, Nat.lt_trans hLeast hLess, hFound⟩

/-- Round a circle derivations would become less and less deep. -/
theorem not_typed_of_circle {expression : Expression}
    (hCircle : Relation.TransGen site.Refers expression expression) (depth : Nat) :
    ∀ field, ¬ site.Typed depth expression field := by
  induction depth using Nat.strongRecOn with
  | ind depth ih =>
      intro field h
      obtain ⟨less, hLess, found, hTyped⟩ := h.transGen_refers hCircle
      exact ih less hLess found hTyped

theorem not_typed_of_reachesCircle {expression : Expression}
    (hCircle : site.ReachesCircle expression) (depth : Nat) (field : Field) :
    ¬ site.Typed depth expression field := by
  intro h
  obtain ⟨other, hPath, hRound⟩ := hCircle
  rcases Relation.reflTransGen_iff_eq_or_transGen.1 hPath with rfl | hPath
  · exact not_typed_of_circle hRound depth field h
  · obtain ⟨less, -, found, hTyped⟩ := h.transGen_refers hPath
    exact not_typed_of_circle hRound less found hTyped

theorem resolve_of_reachesCircle {expression : Expression}
    (hCircle : site.ReachesCircle expression) (fuel : Nat) :
    site.resolve fuel expression = none := by
  apply Option.eq_none_iff_forall_ne_some.2
  intro field h
  obtain ⟨depth, -, hTyped⟩ := typed_of_resolve fuel h
  exact not_typed_of_reachesCircle hCircle depth field hTyped

/-! ## Result types -/

/-- The result type of an expression is the field that the rules derive for it with at most sixteen
states looked up inside each other. More look-ups change no field that is found, and whatever their
number, an expression from which references lead into a circle has none. -/
theorem resultType_typed (site : Site) (expression : Expression) (component : Component) :
    (∀ field, site.host.resultType expression component = some field ↔
      ∃ depth ≤ 16, site.Typed depth expression field) ∧
    (∀ fuel more field, fuel ≤ more → site.resolve fuel expression = some field →
      site.resolve more expression = some field) ∧
    (site.ReachesCircle expression → site.host.resultType expression component = none ∧
      ∀ fuel, site.resolve fuel expression = none) := by
  have hHost : site.host.resultType expression component = site.resolve 17 expression := rfl
  refine ⟨fun field => ⟨fun h => ?_, ?_⟩, fun _ _ _ hMore => resolve_mono hMore, fun hCircle => ?_⟩
  · rw [hHost] at h
    obtain ⟨depth, hDepth, hTyped⟩ := typed_of_resolve 17 h
    exact ⟨depth, Nat.le_of_lt_succ hDepth, hTyped⟩
  · rintro ⟨depth, hDepth, hTyped⟩
    rw [hHost]
    exact resolve_of_typed hTyped 17 (Nat.succ_le_succ hDepth)
  · exact ⟨resolve_of_reachesCircle hCircle 17, resolve_of_reachesCircle hCircle⟩

/-- A field of a data source that is a list. -/
def listProperty : Property := ⟨"posts", "posts", some "cms", ["Post"], .list, none⟩

/-- A reference to a state, its shape not forced. -/
def freeState (componentId stateId : String) : Token :=
  .state ⟨componentId, stateId, true, none, none⟩

/-- A filter without options. -/
def plainFilter (filterId : String) : Token := .filter ⟨filterId, filterId, .empty⟩

/-- A loop over a list, and a menu two states of which refer to each other. -/
def circularSite : Site where
  pages := [⟨"Home", {}, .node { persistentId := some "body" }
    [.leaf {
       persistentId := some "list"
       privateStates := [⟨"__data", none, false, [.property listProperty]⟩] },
     .leaf {
       persistentId := some "menu"
       publicStates :=
         [⟨"up", none, false, [freeState "menu" "down", .property listProperty]⟩,
          ⟨"down", none, false, [freeState "menu" "up"]⟩] }]⟩]

theorem circularSite_typed :
    circularSite.host.resultType [freeState "list" "__data"] default =
        some ⟨"posts", "posts", ["Post"], .object, some "cms"⟩ ∧
      circularSite.resolve 40 [freeState "list" "__data"] =
        some ⟨"posts", "posts", ["Post"], .object, some "cms"⟩ ∧
      circularSite.host.resultType
          [.property listProperty, plainFilter "last", plainFilter "upcase"] default =
        some ⟨"posts", "posts", ["Post"], .object, some "cms"⟩ ∧
      circularSite.host.resultType [.property listProperty, plainFilter "size"] default =
        some ⟨"posts", "posts", ["Post"], .scalar, some "cms"⟩ ∧
      circularSite.ReachesCircle [freeState "menu" "up"] ∧
      circularSite.host.resultType [freeState "menu" "up"] default = none := by
  obtain ⟨hRules, hMore, -⟩ := resultType_typed circularSite [freeState "list" "__data"] default
  obtain ⟨hLastRules, -⟩ := resultType_typed circularSite
    [.property listProperty, plainFilter "last", plainFilter "upcase"] default
  obtain ⟨hSizeRules, -⟩ := resultType_typed circularSite
    [.property listProperty, plainFilter "size"] default
  obtain ⟨-, -, hCircle⟩ := resultType_typed circularSite [freeState "menu" "up"] default
  have hList : circularSite.Typed 0 [.property listProperty]
      ⟨"posts", "posts", ["Post"], .list, some "cms"⟩ := .first (.property none listProperty)
  have hLoop : circularSite.LeadsTo ⟨"list", "__data", true, none, none⟩
      ⟨"__data", none, false, [.property listProperty]⟩ := state?_eq_some.1 rfl
  have hItem : circularSite.Typed 1 [freeState "list" "__data"]
      ⟨"posts", "posts", ["Post"], .object, some "cms"⟩ := .first (.item none rfl rfl hLoop hList)
  have hLast : circularSite.Typed 0 [.property listProperty, plainFilter "last"]
      ⟨"posts", "posts", ["Post"], .object, some "cms"⟩ :=
    .next hList (.filter (.reshaped (.item (by decide))))
  have hOther : ∀ after, ¬ Reshapes "upcase" .object after := by
    intro after h
    cases h with
    | scalar _ hName | list _ hName => exact absurd hName (by decide)
  have hUpcase : circularSite.Typed 0
      [.property listProperty, plainFilter "last", plainFilter "upcase"]
      ⟨"posts", "posts", ["Post"], .object, some "cms"⟩ := .next hLast (.filter (.kept hOther))
  have hSize : circularSite.Typed 0 [.property listProperty, plainFilter "size"]
      ⟨"posts", "posts", ["Post"], .scalar, some "cms"⟩ :=
    .next hList (.filter (.reshaped (.scalar _ (by decide))))
  have hUp : circularSite.Refers [freeState "menu" "up"]
      [freeState "menu" "down", .property listProperty] :=
    ⟨_, _, List.mem_cons_self, rfl, state?_eq_some.1 rfl, rfl⟩
  have hDown : circularSite.Refers [freeState "menu" "down", .property listProperty]
      [freeState "menu" "up"] :=
    ⟨_, _, List.mem_cons_self, rfl, state?_eq_some.1 rfl, rfl⟩
  have hReaches : circularSite.ReachesCircle [freeState "menu" "up"] :=
    ⟨_, .single hUp, .tail (.single hDown) hUp⟩
  exact ⟨(hRules _).2 ⟨1, by decide, hItem⟩, hMore 2 40 _ (by decide) rfl,
    (hLastRules _).2 ⟨0, by decide, hUpcase⟩, (hSizeRules _).2 ⟨0, by decide, hSize⟩, hReaches,
    (hCircle hReaches).1⟩

/-- A row of states each of which refers to the next one, and the last to a field. -/
def ladderSite (length : Nat) : Site where
  pages := [⟨"Home", {}, .leaf {
    persistentId := some "ladder"
    publicStates := (List.range length).map fun step =>
      ⟨toString step, none, false,
        if step + 1 = length then [.property listProperty]
        else [freeState "ladder" (toString (step + 1))]⟩ }⟩]

example : ((ladderSite 16).host.resultType [freeState "ladder" "0"] default).isSome = true := by
  decide +kernel

example : (ladderSite 17).host.resultType [freeState "ladder" "0"] default = none := by
  decide +kernel

end Site

end PagePress
