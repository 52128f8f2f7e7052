import Mathlib.Data.List.Forall2
import PagePress.Proofs.Costs
import PagePress.Proofs.Lines

/-!
# Blocks and the pass

A block compiles one expression, or two when it compares. All that can fail is looked at before a
variable is taken, so a block of one expression that fails leaves the pass as it was. A comparison
whose second expression is refused has taken the variable of the first one, and keeps it.

The text of a block is laid out around the statements of its expressions, each of which assigns a
variable of its own. Behind them stands what reads these variables and no others: it prints the
value, publishes it, loops over it, tests it or compares it with the other one.

## Main results

* `Atomic.guard`, `Atomic.map` — steps that take one variable, or fail and change nothing.
* `atomic_assignment` — an expression is compiled by such a step.
* `run_conditional` — what a condition takes, keeps and reads.
* `blocks_account` — all blocks: what they take, what they keep, and what they read.
-/

namespace PagePress

/-! ## Steps that take one variable or none -/

/-- A step with some faults fails with the first of them and leaves the pass as it was. Without
faults it takes one variable, and its value has a property that may speak of the pass before. -/
def Atomic {ε α : Type} (faults : List ε) (property : Context → α → Prop) (step : Pass ε α) :
    Prop :=
  ∀ context : Context, match faults with
    | [] => ∃ value, step.runIn context = (.ok value, context.advance 1) ∧ property context value
    | fault :: _ => step.runIn context = (.error fault, context)

namespace Atomic

variable {ε α β : Type} {faults before : List ε} {property : Context → α → Prop}
  {goal : Context → β → Prop}

/-- What is done with the value of a step without effects. -/
theorem map {step : Pass ε α} (h : Atomic faults property step) (f : α → β)
    (hValue : ∀ context value, property context value → goal context (f value)) :
    Atomic faults goal (step >>= fun value => pure (f value)) := by
  intro context
  have hRun := h context
  cases faults with
  | cons fault rest => exact Pass.runIn_bind_of_error hRun
  | nil =>
      obtain ⟨value, hOk, hProperty⟩ := hRun
      exact ⟨f value, Pass.runIn_bind_of_ok hOk, hValue context value hProperty⟩

/-- A test without effects before a step comes first with its faults. -/
theorem guard {result : Except ε β} {second : β → Pass ε α}
    (hResult : Pass.Costs before 0 (Pass.ofExcept result))
    (h : ∀ value, result = .ok value → Atomic faults property (second value)) :
    Atomic (before ++ faults) property (Pass.ofExcept result >>= second) := by
  intro context
  have hRun := hResult context
  cases before with
  | nil =>
      obtain ⟨value, hOk⟩ := hRun
      obtain rfl : result = .ok value := congrArg Prod.fst hOk
      exact h value rfl context
  | cons fault rest =>
      obtain ⟨next, hError⟩ := hRun
      obtain rfl : result = .error fault := congrArg Prod.fst hError
      rfl

end Atomic

/-! ## What is assigned -/

/-- A statement assigns the value of an expression to a variable. -/
structure Statement.Assigns (context : Context) (name : String) (expression : Expression)
    (statement : Statement) : Prop where
  named : statement.variableName = name
  assigns : ∃ value, statement.source = "assign " ++ name ++ " = " ++ value
  compiled : expression.statement name (expression.receiver context.globalSources) =
    .ok statement.source

namespace Statement.Assigns

variable {context : Context} {name : String} {expression : Expression} {statement : Statement}

/-- What an expression is compiled to does not depend on the variables that were taken. -/
theorem of_advance {taken : Nat} (h : statement.Assigns (context.advance taken) name expression) :
    statement.Assigns context name expression :=
  ⟨h.named, h.assigns, h.compiled⟩

theorem source_ne_empty (h : statement.Assigns context name expression) :
    statement.source ≠ "" := by
  obtain ⟨value, hSource⟩ := h.assigns
  simp [hSource]

end Statement.Assigns

/-! ## Statements -/

/-- An expression is compiled to the statement that assigns it to the next variable. -/
theorem atomic_assignment (element : Element) (expression : Expression) :
    Atomic (grammarFaults expression)
      (fun context statement =>
        statement.Assigns context (variableName element.id context.nextVariable) expression)
      (assignment element expression) := by
  intro context
  cases hCheck : expression.check with
  | error error =>
      rw [grammarFaults, hCheck]
      exact run_assignment_of_error element hCheck context
  | ok value =>
      obtain ⟨head, path, filters, hHead, rfl⟩ := (Expression.check_eq_ok_iff _).1 hCheck
      rw [grammarFaults, hCheck]
      refine ⟨_, run_assignment_of_ok element hHead path filters context, rfl, ?_, ?_⟩
      · exact ⟨_, by rw [Expression.chainStatement, String.append_assoc, String.append_assoc]⟩
      · exact Expression.statement_chain hHead path filters _ _

namespace Block

/-! ## What is laid out around a statement -/

variable {element : Element} {expression : Expression}

/-- A text is laid out around the statement that assigns an expression to the next variable of an
element, and around this variable. -/
def Presents (layout : String → String → String) (element : Element) (expression : Expression)
    (context : Context) (text : String) : Prop :=
  ∃ statement : Statement,
    statement.Assigns context (variableName element.id context.nextVariable) expression ∧
      text = layout statement.source statement.variableName

/-- The value is printed in the last line of the tag. -/
def printed (source name : String) : String :=
  "\x7b% liquid\n  " ++ source ++ "\n  echo " ++ name ++ "\n%\x7d"

/-- The value is printed behind the tag, in one line. -/
def printedInline (source name : String) : String :=
  "\x7b% " ++ source ++ " %\x7d\x7b\x7b " ++ name ++ " \x7d\x7d"

/-- The value is given to a state in the last line of the tag. -/
def published (persistentId stateId source name : String) : String :=
  "\x7b% liquid\n  " ++ source ++
    "\n  assign state_" ++ persistentId ++ "_" ++ stateId ++ " = " ++ name ++ "\n%\x7d"

/-- The value is looped over in a tag of its own; a state holds the item. -/
def looped (persistentId source name : String) : String :=
  "\x7b% liquid\n  " ++ source ++
    "\n%\x7d\n\x7b% for state_" ++ persistentId ++ "___data in " ++ name ++ " %\x7d"

/-- What is written around a statement, when it is laid out as it should be. -/
theorem atomic_presents {make : Statement → String} {layout : String → String → String}
    (h : ∀ statement : Statement, statement.source ≠ "" →
      make statement = layout statement.source statement.variableName) :
    Atomic (grammarFaults expression) (Presents layout element expression)
      (assignment element expression >>= fun statement => pure (make statement)) :=
  (atomic_assignment element expression).map _ fun _ statement hAssigns =>
    ⟨statement, hAssigns, h statement hAssigns.source_ne_empty⟩

theorem atomic_echo (element : Element) (expression : Expression) :
    Atomic (grammarFaults expression) (Presents printed element expression)
      (echo element expression) := by
  apply atomic_presents
  intro statement hSource
  rw [liquidTag_of_ne_empty (by simp [hSource])]
  unfold printed
  apply String.toList_inj.1
  simp

theorem atomic_echoInline (element : Element) (expression : Expression) :
    Atomic (grammarFaults expression) (Presents printedInline element expression)
      (echoInline element expression) := by
  apply atomic_presents
  intro statement _
  unfold printedInline tag
  apply String.toList_inj.1
  simp

theorem requirePersistentId_eq_ok {persistentId : String}
    (h : requirePersistentId element = .ok persistentId) :
    element.persistentId = some persistentId ∧ persistentId ≠ "" := by
  unfold requirePersistentId at h
  cases hId : element.persistentId? with
  | none =>
      rw [hId] at h
      cases h
  | some id =>
      rw [hId] at h
      cases h
      simpa [Element.persistentId?, Option.filter_eq_some_iff] using hId

/-- What the assignment block publishes: the state of the element, under its persistent id. -/
def Publishes (stateId : String) (element : Element) (expression : Expression) (context : Context)
    (text : String) : Prop :=
  ∃ persistentId, element.persistentId = some persistentId ∧ persistentId ≠ "" ∧
    Presents (published persistentId stateId) element expression context text

/-- What the loop block starts with: the state of the element, under its persistent id, is the
item. -/
def Loops (element : Element) (expression : Expression) (context : Context) (wrapper : Wrapper) :
    Prop :=
  ∃ persistentId, element.persistentId = some persistentId ∧ persistentId ≠ "" ∧
    Presents (looped persistentId) element expression context wrapper.opening ∧
      wrapper.closing = "\x7b% endfor %\x7d"

/-- What is made of a statement under the persistent id of its element. -/
theorem atomic_underId {α : Type} {make : String → Statement → α} {goal : Context → α → Prop}
    (h : ∀ persistentId context statement, element.persistentId = some persistentId →
      persistentId ≠ "" →
      statement.Assigns context (variableName element.id context.nextVariable) expression →
        goal context (make persistentId statement)) :
    Atomic (persistentIdFaults element ++ grammarFaults expression) goal
      (Pass.ofExcept (requirePersistentId element) >>= fun persistentId =>
        assignment element expression >>= fun statement => pure (make persistentId statement)) := by
  refine .guard (costs_requirePersistentId element) fun persistentId hId => ?_
  obtain ⟨hElement, hText⟩ := requirePersistentId_eq_ok hId
  exact (atomic_assignment element expression).map _ fun context statement hAssigns =>
    h persistentId context statement hElement hText hAssigns

theorem atomic_assign (stateId : String) (element : Element) (expression : Expression) :
    Atomic (persistentIdFaults element ++ grammarFaults expression)
      (Publishes stateId element expression) (assign stateId element expression) := by
  refine atomic_underId fun persistentId _ statement hElement hText hAssigns =>
    ⟨persistentId, hElement, hText, statement, hAssigns, ?_⟩
  rw [liquidTag_of_ne_empty (by simp [hAssigns.source_ne_empty])]
  unfold published stateVariable
  apply String.toList_inj.1
  simp

/-- The faults of an expression to loop over. -/
def loopFaults (resultType : ResultType) (component : Component) (expression : Expression) :
    List ExpressionError :=
  if expression.isEmpty then [.empty] else listFaults resultType component expression

theorem costs_requireList_all (resultType : ResultType) (component : Component)
    (expression : Expression) :
    Pass.Costs (loopFaults resultType component expression) 0
      (Pass.ofExcept (requireList resultType component expression)) := by
  unfold loopFaults
  cases hEmpty : expression.isEmpty with
  | true => exact .ofExcept_error (by rw [requireList, hEmpty]; rfl)
  | false => exact costs_requireList resultType component hEmpty

theorem atomic_loop (resultType : ResultType) (component : Component) (expression : Expression) :
    Atomic (loopFaults resultType component expression ++
        (persistentIdFaults component.element ++ grammarFaults expression))
      (Loops component.element expression) (loop resultType component expression) := by
  refine .guard (costs_requireList_all resultType component expression) fun _ _ =>
    atomic_underId fun persistentId _ statement hElement hText hAssigns =>
      ⟨persistentId, hElement, hText, ⟨statement, hAssigns, ?_⟩, rfl⟩
  rw [liquidTag_of_ne_empty (by simp [hAssigns.source_ne_empty])]
  unfold looped stateVariable loopState tag
  apply String.toList_inj.1
  simp

/-! ## Conditions -/

/-- The signs of the operators that compare. -/
inductive Signed : Operator → String → Prop
  | equal : Signed .equal "=="
  | notEqual : Signed .notEqual "!="
  | greaterThan : Signed .greaterThan ">"
  | lessThan : Signed .lessThan "<"
  | greaterThanOrEqual : Signed .greaterThanOrEqual ">="
  | lessThanOrEqual : Signed .lessThanOrEqual "<="

theorem comparison?_eq_some_iff {operator : Operator} {sign : String} :
    operator.comparison? = some sign ↔ Signed operator sign := by
  constructor
  · intro h
    cases operator <;> cases h <;> constructor
  · rintro (_ | _) <;> rfl

/-- How an operator tests one variable, and what ends the block. An operator that compares, but has
nothing to compare with, tests as for a present value. -/
inductive Tests (name : String) : Operator → String → String → Prop
  | truthy : Tests name .truthy ("if " ++ name) "endif"
  | falsy : Tests name .falsy ("unless " ++ name) "endunless"
  | emptyArray : Tests name .emptyArray ("if " ++ name ++ ".size == 0") "endif"
  | notEmptyArray : Tests name .notEmptyArray ("if " ++ name ++ ".size > 0") "endif"
  | alone {operator : Operator} {sign : String} (hSign : Signed operator sign) :
      Tests name operator ("if " ++ name) "endif"

theorem unaryTest_tests (operator : Operator) (name : String) :
    ∃ test ending, unaryTest operator name = ⟨tag test, tag ending⟩ ∧
      Tests name operator test ending := by
  cases hSign : operator.comparison? with
  | some sign =>
      refine ⟨"if " ++ name, "endif", ?_, .alone (comparison?_eq_some_iff.1 hSign)⟩
      cases operator <;> first | rfl | cases hSign
  | none =>
      cases operator with
      | truthy => exact ⟨_, _, rfl, .truthy⟩
      | falsy => exact ⟨_, _, rfl, .falsy⟩
      | emptyArray => exact ⟨_, _, rfl, .emptyArray⟩
      | notEmptyArray => exact ⟨_, _, rfl, .notEmptyArray⟩
      | _ => cases hSign

/-- A condition compares with an expression: its operator has a sign, and the second expression is
there and has tokens. -/
structure Condition.Compares (condition : Condition) (sign : String) (second : Expression) :
    Prop where
  signed : Signed condition.operator sign
  isSecond : condition.second = some second
  hasTokens : second ≠ []

theorem Condition.compared?_eq_some_iff {condition : Condition} {sign : String}
    {second : Expression} :
    condition.compared? = some (sign, second) ↔ condition.Compares sign second := by
  constructor
  · intro h
    obtain ⟨found, hSign, h⟩ := Option.bind_eq_some_iff.1 h
    obtain ⟨other, hOther, h⟩ := Option.bind_eq_some_iff.1 h
    cases h
    obtain ⟨hSecond, hTokens⟩ := Option.filter_eq_some_iff.1 hOther
    exact ⟨comparison?_eq_some_iff.1 hSign, hSecond, by simpa using hTokens⟩
  · rintro ⟨hSigned, hSecond, hTokens⟩
    simp [compared?, comparison?_eq_some_iff.2 hSigned, hSecond, Option.filter, hTokens]

/-- A condition that compares with nothing tests its first expression. -/
theorem Condition.compared?_eq_none_iff {condition : Condition} :
    condition.compared? = none ↔ ∀ sign second, ¬ condition.Compares sign second := by
  simp only [Option.eq_none_iff_forall_ne_some, ne_eq, Prod.forall, compared?_eq_some_iff]

/-- The value is tested in a tag of its own behind its statement. -/
def tested (source test : String) : String :=
  "\x7b% liquid\n  " ++ source ++ "\n%\x7d\n\x7b% " ++ test ++ " %\x7d"

/-- The values are compared in a tag of its own behind their statements. -/
def compared (left right : Statement) (sign : String) : String :=
  "\x7b% liquid\n  " ++ left.source ++ "\n  " ++ right.source ++ "\n%\x7d\n\x7b% if " ++
    left.variableName ++ " " ++ sign ++ " " ++ right.variableName ++ " %\x7d"

/-- What becomes of a condition in a pass. -/
inductive ConditionRun (element : Element) (condition : Condition) (context : Context) :
    Except ExpressionError Wrapper × Context → Prop
  | firstRefused {error : ExpressionError} (hFirst : condition.expression.check = .error error) :
      ConditionRun element condition context (.error error, context)
  | secondRefused {sign : String} {second : Expression} {error : ExpressionError}
      (hFirst : condition.expression.check = .ok ()) (hCompares : condition.Compares sign second)
      (hSecond : second.check = .error error) :
      ConditionRun element condition context (.error error, context.advance 1)
  | compares {sign : String} {second : Expression} {left right : Statement}
      (hFirst : condition.expression.check = .ok ()) (hCompares : condition.Compares sign second)
      (hSecond : second.check = .ok ())
      (hLeft : left.Assigns context (variableName element.id context.nextVariable)
        condition.expression)
      (hRight : right.Assigns context (variableName element.id (context.nextVariable + 1)) second) :
      ConditionRun element condition context
        (.ok ⟨compared left right sign, "\x7b% endif %\x7d"⟩, context.advance 2)
  | tests {statement : Statement} {test ending : String}
      (hFirst : condition.expression.check = .ok ())
      (hAlone : ∀ sign second, ¬ condition.Compares sign second)
      (hAssigns : statement.Assigns context (variableName element.id context.nextVariable)
        condition.expression)
      (hTest : Tests statement.variableName condition.operator test ending) :
      ConditionRun element condition context
        (.ok ⟨tested statement.source test, "\x7b% " ++ ending ++ " %\x7d"⟩, context.advance 1)

theorem after_unaryTest {operator : Operator} {name source test ending : String}
    (hSource : source ≠ "") (h : unaryTest operator name = ⟨tag test, tag ending⟩) :
    (unaryTest operator name).after [source] =
      ⟨tested source test, "\x7b% " ++ ending ++ " %\x7d"⟩ := by
  rw [h, Wrapper.after, liquidTag_of_ne_empty (by simp [hSource]), Wrapper.mk.injEq]
  refine ⟨?_, rfl⟩
  unfold tested tag
  apply String.toList_inj.1
  simp

theorem after_binaryTest {left right : Statement} (sign : String) (hLeft : left.source ≠ "")
    (hRight : right.source ≠ "") :
    (binaryTest left.variableName sign right.variableName).after [left.source, right.source] =
      ⟨compared left right sign, "\x7b% endif %\x7d"⟩ := by
  rw [binaryTest, Wrapper.after, liquidTag_of_ne_empty (by simp [hLeft, hRight]), Wrapper.mk.injEq]
  refine ⟨?_, rfl⟩
  unfold compared tag
  apply String.toList_inj.1
  simp

theorem run_conditional (element : Element) (condition : Condition) (context : Context) :
    ConditionRun element condition context ((conditional element condition).runIn context) := by
  have hLeft := atomic_assignment element condition.expression context
  unfold grammarFaults at hLeft
  cases hFirst : condition.expression.check with
  | error error =>
      rw [hFirst] at hLeft
      rw [conditional, Pass.runIn_bind_of_error hLeft]
      exact .firstRefused hFirst
  | ok value =>
      rw [hFirst] at hLeft
      obtain ⟨left, hLeft, hAssigns⟩ := hLeft
      rw [conditional, Pass.runIn_bind_of_ok hLeft]
      cases hCompared : condition.compared? with
      | none =>
          obtain ⟨test, ending, hUnary, hTest⟩ :=
            unaryTest_tests condition.operator left.variableName
          simp only [after_unaryTest hAssigns.source_ne_empty hUnary]
          exact .tests hFirst (Condition.compared?_eq_none_iff.1 hCompared) hAssigns hTest
      | some compared =>
          obtain ⟨sign, second⟩ := compared
          have hCompares := Condition.compared?_eq_some_iff.1 hCompared
          have hRight := atomic_assignment element second (context.advance 1)
          unfold grammarFaults at hRight
          cases hSecond : second.check with
          | error error =>
              rw [hSecond] at hRight
              rw [Pass.runIn_bind_of_error hRight]
              exact .secondRefused hFirst hCompares hSecond
          | ok value =>
              rw [hSecond] at hRight
              obtain ⟨right, hRight, hOther⟩ := hRight
              rw [Pass.runIn_bind_of_ok hRight,
                after_binaryTest sign hAssigns.source_ne_empty hOther.source_ne_empty]
              exact .compares hFirst hCompares hSecond hAssigns hOther.of_advance

/-- A condition that compares by its operator but has nothing to compare with is the condition that
holds for a present value. -/
theorem conditional_eq_truthy (element : Element) {condition : Condition} {sign : String}
    (hSign : Signed condition.operator sign)
    (hAlone : ∀ sign second, ¬ condition.Compares sign second) :
    conditional element condition =
      conditional element { condition with operator := .truthy } := by
  have hNone := Condition.compared?_eq_none_iff.2 hAlone
  have hTruthy : Condition.compared? { condition with operator := .truthy } = none := rfl
  have hTest (name : String) : unaryTest condition.operator name = unaryTest .truthy name := by
    obtain ⟨expression, operator, second⟩ := condition
    cases hSign <;> rfl
  simp only [conditional, hNone, hTruthy, hTest]

/-! ## All blocks -/

/-- The account of all blocks. A block of one expression fails with the first of its faults and
takes nothing, or takes one variable, the one that its text assigns and reads. A condition takes
one or two, and keeps the first when its second expression is refused. -/
theorem blocks_account :
    (∀ element expression,
      Atomic (grammarFaults expression)
          (fun context statement => Statement.Assigns context
            (variableName element.id context.nextVariable) expression statement)
          (assignment element expression) ∧
        Atomic (grammarFaults expression) (Presents printed element expression)
          (echo element expression) ∧
        Atomic (grammarFaults expression) (Presents printedInline element expression)
          (echoInline element expression) ∧
        ∀ stateId, Atomic (persistentIdFaults element ++ grammarFaults expression)
          (Publishes stateId element expression) (assign stateId element expression)) ∧
      (∀ resultType component expression,
        Atomic (loopFaults resultType component expression ++
            (persistentIdFaults component.element ++ grammarFaults expression))
          (Loops component.element expression) (loop resultType component expression)) ∧
      ∀ element condition,
        (∀ context, ConditionRun element condition context
          ((conditional element condition).runIn context)) ∧
        ∀ sign, Signed condition.operator sign →
          (∀ sign second, ¬ condition.Compares sign second) →
          conditional element condition =
            conditional element { condition with operator := .truthy } := by
  refine ⟨fun element expression => ?_, atomic_loop, fun element condition => ?_⟩
  · exact ⟨atomic_assignment element expression, atomic_echo element expression,
      atomic_echoInline element expression, fun stateId => atomic_assign stateId element expression⟩
  · exact ⟨run_conditional element condition, fun _ => conditional_eq_truthy element⟩

/-- An expression of one field, without a data source. -/
private def fieldOf (fieldId : String) : Expression :=
  [.property ⟨fieldId, fieldId, none, [], .scalar, none⟩]

/-- A comparison of two fields reads the variables of both. With an expression that has no tokens
the first one alone is tested. -/
theorem count_compared :
    (conditional { id := "c1" }
        ⟨fieldOf "count", .greaterThanOrEqual, some (fieldOf "limit")⟩).runIn ⟨0, 0, [], []⟩ =
      (.ok ⟨"\x7b% liquid\n  assign var_c1_0 = count\n  assign var_c1_1 = limit\n%\x7d\n" ++
          "\x7b% if var_c1_0 >= var_c1_1 %\x7d", "\x7b% endif %\x7d"⟩, ⟨2, 0, [], []⟩) ∧
      Signed .equal "==" ∧
      (∀ sign second, ¬ Condition.Compares ⟨fieldOf "count", .equal, some []⟩ sign second) ∧
      conditional { id := "c1" } ⟨fieldOf "count", .equal, some []⟩ =
        conditional { id := "c1" } ⟨fieldOf "count", .truthy, some []⟩ ∧
      (conditional { id := "c1" } ⟨fieldOf "count", .equal, some []⟩).runIn ⟨0, 0, [], []⟩ =
        (.ok ⟨"\x7b% liquid\n  assign var_c1_0 = count\n%\x7d\n\x7b% if var_c1_0 %\x7d",
          "\x7b% endif %\x7d"⟩, ⟨1, 0, [], []⟩) := by
  have hAlone (sign : String) (second : Expression) :
      ¬ Condition.Compares ⟨fieldOf "count", .equal, some []⟩ sign second := by
    intro h
    cases h.isSecond
    exact h.hasTokens rfl
  have hTruthy :=
    (blocks_account.2.2 { id := "c1" } ⟨fieldOf "count", .equal, some []⟩).2 "==" .equal hAlone
  exact ⟨by decide, .equal, hAlone, hTruthy, by decide⟩

end Block

end PagePress
