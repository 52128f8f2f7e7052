import PagePress.Proofs.Grammar
import PagePress.Proofs.Lines
import PagePress.Proofs.Naming.Records

/-!
# Variables of published states

An element publishes a state in a block: an assignment for a public state, a loop for its current
item. An expression of any element reads the state by the persistent id of the publisher and the
state id. Both sides name one variable, made of the two ids with an underscore between them.

The ids are free texts, and nothing marks where the first one ends. A variable therefore tells its
two ids up to the underscore that is taken for the one between them, and two states share a variable
exactly when they are two such readings of one text.

## Main results

* `stateVariable_eq_iff` — which states have one variable.
* `binds_iff` — the variables that blocks bind.
* `bound_states_clash_iff` — which states of elements clash, and what an expression reads.
-/

namespace PagePress

/-! ## Variables -/

/-- The first persistent id, an underscore and what the first state id starts with make up the
second persistent id. -/
def Overlaps (firstId firstState secondId secondState : String) : Prop :=
  ∃ rest, secondId = firstId ++ "_" ++ rest ∧ firstState = rest ++ "_" ++ secondState

theorem overlaps_iff {firstId firstState secondId secondState : String} :
    Overlaps firstId firstState secondId secondState ↔
      ∃ rest : List Char, secondId.toList = firstId.toList ++ '_' :: rest ∧
        firstState.toList = rest ++ '_' :: secondState.toList := by
  constructor
  · rintro ⟨rest, rfl, rfl⟩
    exact ⟨rest.toList, by simp, by simp⟩
  · rintro ⟨rest, hId, hState⟩
    refine ⟨String.ofList rest, ?_, ?_⟩
    · rw [← String.toList_inj, hId]
      simp
    · rw [← String.toList_inj, hState]
      simp

theorem stateVariable_eq_iff {firstId firstState secondId secondState : String} :
    stateVariable firstId firstState = stateVariable secondId secondState ↔
      (firstId = secondId ∧ firstState = secondState) ∨
      Overlaps firstId firstState secondId secondState ∨
      Overlaps secondId secondState firstId firstState := by
  have hText : ∀ id state : String, (stateVariable id state).toList =
      "state_".toList ++ (id.toList ++ '_' :: state.toList) := by
    intro id state
    simp [stateVariable]
  rw [← String.toList_inj, hText, hText, List.append_cancel_left_eq, append_separator_eq_iff,
    String.toList_inj, String.toList_inj, overlaps_iff, overlaps_iff]

/-! ## Blocks that publish -/

namespace Block

/-- A block of a component binds a variable for a state: its text assigns the value of the compiled
expression to the variable, or loops over it with the variable. -/
inductive Binds (component : Component) : String → String → Prop
  | assigned {stateId name text : String} {expression : Expression} {statement : Statement}
      {context after next : Context}
      (hStatement : (assignment component.element expression).runIn context =
        (.ok statement, after))
      (hRun : (assign stateId component.element expression).runIn context = (.ok text, next))
      (hText : text = liquidTag
        [statement.source, "assign " ++ name ++ " = " ++ statement.variableName]) :
      Binds component stateId name
  | looped {name : String} {resultType : ResultType} {expression : Expression} {wrapper : Wrapper}
      {statement : Statement} {context after next : Context}
      (hStatement : (assignment component.element expression).runIn context =
        (.ok statement, after))
      (hRun : (loop resultType component expression).runIn context = (.ok wrapper, next))
      (hText : wrapper.opening = liquidTag [statement.source] ++ "\n" ++
        tag ("for " ++ name ++ " in " ++ statement.variableName)) :
      Binds component loopState name

/-- What is made of the persistent id of an element and of a statement has both. -/
theorem run_publishing {α : Type} {element : Element} {expression : Expression}
    {make : String → Statement → α} {value : α} {statement : Statement}
    {context after next : Context}
    (hStatement : (assignment element expression).runIn context = (.ok statement, after))
    (hRun : Pass.runIn (do
      let id ← Pass.ofExcept (requirePersistentId element)
      let statement ← assignment element expression
      return make id statement) context = (.ok value, next)) :
    ∃ id, element.persistentId? = some id ∧ value = make id statement := by
  cases hId : element.persistentId? with
  | none =>
      rw [requirePersistentId, hId] at hRun
      cases hRun
  | some id =>
      rw [requirePersistentId, hId, Pass.runIn_bind_of_ok (Pass.runIn_ofExcept _ _),
        Pass.runIn_bind_of_ok hStatement] at hRun
      cases hRun
      exact ⟨id, rfl, rfl⟩

/-- The text of an assignment tells its variable. -/
theorem assign_line_inj {source first second value : String}
    (h : liquidTag [source, "assign " ++ first ++ " = " ++ value] =
      liquidTag [source, "assign " ++ second ++ " = " ++ value]) : first = second := by
  have hLine : ∀ name : String, LineBuffer.wholeLine "  " 1 ("assign " ++ name ++ " = " ++ value) =
      "  assign " ++ name ++ (" = " ++ value ++ "\n") := by
    intro name
    have hText : ("assign " ++ name ++ " = " ++ value).isEmpty = false := by simp
    rw [← String.toList_inj, LineBuffer.wholeLine, hText]
    simp [LineBuffer.repeated]
  have hChars := congrArg String.toList h
  simp only [liquidTag_eq, List.map_cons, List.map_nil, hLine] at hChars
  rw [← String.toList_inj]
  simpa using hChars

theorem for_line_inj {source first second value : String}
    (h : liquidTag [source] ++ "\n" ++ tag ("for " ++ first ++ " in " ++ value) =
      liquidTag [source] ++ "\n" ++ tag ("for " ++ second ++ " in " ++ value)) :
    first = second := by
  have hChars := congrArg String.toList h
  rw [← String.toList_inj]
  simpa [tag] using hChars

/-- A block binds the variable of the state, and an element without a persistent id binds none. -/
theorem binds_iff {component : Component} {stateId name : String} :
    Binds component stateId name ↔
      ∃ id, component.element.persistentId? = some id ∧ name = stateVariable id stateId := by
  constructor
  · intro h
    cases h with
    | assigned hStatement hRun hText =>
        obtain ⟨id, hId, rfl⟩ := run_publishing hStatement hRun
        exact ⟨id, hId, (assign_line_inj hText).symm⟩
    | looped hStatement hRun hText =>
        obtain ⟨_, between, hList, hRest⟩ := Pass.runIn_bind_eq_ok hRun
        obtain ⟨-, rfl⟩ := Prod.mk.inj hList
        obtain ⟨id, hId, rfl⟩ := run_publishing hStatement hRest
        exact ⟨id, hId, (for_line_inj hText).symm⟩
  · rintro ⟨id, hId, rfl⟩
    let title : Token := .property ⟨"title", "", none, [], .scalar, none⟩
    have hTitle : title.isFilter = false := rfl
    have hStatement := run_assignment_of_ok component.element hTitle [] [] (Context.start {} 0 [])
    have hRequire : requirePersistentId component.element = .ok id := by
      rw [requirePersistentId, hId]
    apply Binds.assigned hStatement
    · rw [assign, hRequire, Pass.runIn_bind_of_ok (Pass.runIn_ofExcept _ _),
        Pass.runIn_bind_of_ok hStatement]
      rfl
    · rfl

end Block

/-! ## Expressions that read -/

/-- A statement assigns what stands in a variable, followed by properties and through filters, to
the variable of the statement. -/
def Statement.Reads (statement : Statement) (name : String) (rest : Expression) : Prop :=
  ∃ (path : List Property) (filters : List Filter),
    rest = path.map Token.property ++ filters.map Token.filter ∧
    statement.source = "assign " ++ statement.variableName ++ " = " ++
      ".".intercalate (name :: path.map Expression.propertyStep) ++ Expression.filterChain filters

/-- An expression that starts at a state reads the variable of the ids that it names. -/
theorem reads_stateVariable {element : Element} {token : StateRef} {rest : Expression}
    {context next : Context} {statement : Statement}
    (hRun : (assignment element (.state token :: rest)).runIn context = (.ok statement, next)) :
    statement.Reads (stateVariable token.componentId token.storedStateId) rest := by
  cases hCheck : Expression.check (.state token :: rest) with
  | error error =>
      rw [run_assignment_of_error element hCheck] at hRun
      cases hRun
  | ok _ =>
      obtain ⟨head, path, filters, hHead, hChain⟩ := (Expression.check_eq_ok_iff _).1 hCheck
      obtain ⟨rfl, hRest⟩ := List.cons.inj hChain
      rw [hChain, run_assignment_of_ok element hHead] at hRun
      obtain ⟨hStatement, -⟩ := Prod.mk.inj hRun
      obtain rfl := Except.ok.inj hStatement
      refine ⟨path, filters, hRest, ?_⟩
      simp [Expression.chainStatement, Expression.headStep, Expression.receiver, Expression.chain,
        Expression.source?, Expression.receiverPrefix]

/-! ## Clashes -/

/-- Published states clash exactly when their ids overlap: of two components that bind variables for
states, the variables are the same when the ids are the same or one state is another reading of the
other's variable, and only then. An expression that names the first state reads its variable. -/
theorem bound_states_clash_iff {first second : Component}
    {firstId secondId firstState secondState firstName secondName : String}
    (hFirstId : first.element.persistentId? = some firstId)
    (hSecondId : second.element.persistentId? = some secondId)
    (hFirst : Block.Binds first firstState firstName)
    (hSecond : Block.Binds second secondState secondName) :
    (firstName = secondName ↔
      (firstId = secondId ∧ firstState = secondState) ∨
      Overlaps firstId firstState secondId secondState ∨
      Overlaps secondId secondState firstId firstState) ∧
    ∀ (element : Element) (token : StateRef) (rest : Expression) (context next : Context)
      (statement : Statement), token.componentId = firstId → token.storedStateId = firstState →
      (assignment element (.state token :: rest)).runIn context = (.ok statement, next) →
      statement.Reads firstName rest := by
  obtain ⟨id, hId, rfl⟩ := Block.binds_iff.1 hFirst
  obtain rfl : id = firstId := Option.some.inj (hId.symm.trans hFirstId)
  obtain ⟨id', hId', rfl⟩ := Block.binds_iff.1 hSecond
  obtain rfl : id' = secondId := Option.some.inj (hId'.symm.trans hSecondId)
  refine ⟨stateVariable_eq_iff, ?_⟩
  rintro element token rest context next statement rfl rfl hRun
  exact reads_stateVariable hRun

/-- A component with a persistent id. -/
def publisher (persistentId : String) : Component := .leaf { persistentId := some persistentId }

/-- The loop item of one component clashes with a state of another one, whose persistent id ends in
an underscore, and an expression reads them both. -/
theorem loop_clashes :
    Block.Binds (publisher "list") Block.loopState "state_list___data" ∧
      Block.Binds (publisher "list_") "_data" "state_list___data" ∧
      Overlaps "list" Block.loopState "list_" "_data" ∧
      ∃ statement next, (assignment {} [.state ⟨"list", Block.loopState, true, none, none⟩]).runIn
          (Context.start {} 0 []) = (.ok statement, next) ∧
        statement.Reads "state_list___data" [] := by
  have hLoop : Block.Binds (publisher "list") Block.loopState "state_list___data" :=
    Block.binds_iff.2 ⟨"list", rfl, rfl⟩
  have hState : Block.Binds (publisher "list_") "_data" "state_list___data" :=
    Block.binds_iff.2 ⟨"list_", rfl, rfl⟩
  obtain ⟨hClash, hReads⟩ := bound_states_clash_iff rfl rfl hLoop hState
  have hStatement := run_assignment_of_ok {}
    (show (Token.state ⟨"list", Block.loopState, true, none, none⟩).isFilter = false from rfl) [] []
    (Context.start {} 0 [])
  refine ⟨hLoop, hState, ?_, _, _, hStatement, hReads _ _ _ _ _ _ rfl rfl hStatement⟩
  rcases hClash.1 rfl with ⟨hSame, -⟩ | hOverlap | ⟨rest, hId, -⟩
  · exact absurd hSame (by decide)
  · exact hOverlap
  · have hLength := congrArg (fun text : String => text.toList.length) hId
    simp at hLength

/-- States of different components with different ids may have one variable. -/
theorem bound_states_not_apart :
    ¬ ∀ (first second : Component) (firstId secondId firstState secondState firstName
        secondName : String),
      first.element.persistentId? = some firstId → second.element.persistentId? = some secondId →
      Block.Binds first firstState firstName → Block.Binds second secondState secondName →
      (firstId, firstState) ≠ (secondId, secondState) → firstName ≠ secondName := by
  intro h
  have hFirst : Block.Binds (publisher "a") "b_c" "state_a_b_c" :=
    Block.binds_iff.2 ⟨"a", rfl, rfl⟩
  have hSecond : Block.Binds (publisher "a_b") "c" "state_a_b_c" :=
    Block.binds_iff.2 ⟨"a_b", rfl, rfl⟩
  exact h _ _ "a" "a_b" _ _ _ _ rfl rfl hFirst hSecond (by decide) rfl

end PagePress
