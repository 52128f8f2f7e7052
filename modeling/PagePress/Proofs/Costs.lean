import PagePress.Proofs.Grammar

/-!
# What steps cost

The steps of rendering do two things to a pass: they take variables, or they fail. Which of the two
happens, and how many variables are taken, does not depend on the pass. A step is described by the
list of its faults, in the order in which it meets them, and by the number of its variables: it
fails with the first fault, or takes that many variables and changes nothing else.

## Main results

* `Costs.bind`, `Costs.mapM` — faults and variables of steps in sequence.
* `costs_assignment` — an expression costs one variable and has the fault of its grammar.
* `costs_conditional` — a condition costs one variable, or two when it compares.
-/

namespace PagePress

/-- The context after some variables more were taken. -/
def Context.advance (context : Context) (taken : Nat) : Context :=
  { context with nextVariable := context.nextVariable + taken }

namespace Pass

variable {ε ε' α β : Type}

/-- A step fails with the first of some faults, or takes a number of variables when there are
none. -/
def Costs (faults : List ε) (taken : Nat) (step : Pass ε α) : Prop :=
  ∀ context : Context, match faults with
    | [] => ∃ value, step.runIn context = (.ok value, context.advance taken)
    | fault :: _ => ∃ next, step.runIn context = (.error fault, next)

namespace Costs

variable {faults faults' : List ε} {m n : Nat}

theorem eq_error_iff {step : Pass ε α} (h : Costs faults n step) (context : Context) (error : ε) :
    (step.runIn context).1 = .error error ↔ faults.head? = some error := by
  have hRun := h context
  cases faults with
  | nil =>
      obtain ⟨value, hValue⟩ := hRun
      simp [hValue]
  | cons fault rest =>
      obtain ⟨next, hNext⟩ := hRun
      simp [hNext]

/-- Whether a step with faults fails, and how, does not depend on the pass. -/
theorem fault?_eq {step : Pass ε α} (h : Costs faults n step) (context : Context) :
    step.fault? context = faults.head? := by
  have hRun := h context
  cases faults with
  | nil =>
      obtain ⟨value, hOk⟩ := hRun
      exact fault?_of_ok hOk
  | cons fault rest =>
      obtain ⟨next, hError⟩ := hRun
      exact fault?_of_error hError

/-- A step that does not fail has no faults and takes its variables. -/
theorem of_ok {step : Pass ε α} (h : Costs faults n step) {context next : Context} {value : α}
    (hOk : step.runIn context = (.ok value, next)) : faults = [] ∧ next = context.advance n := by
  have hRun := h context
  rw [hOk] at hRun
  cases faults with
  | nil =>
      obtain ⟨other, hOther⟩ := hRun
      exact ⟨rfl, congrArg Prod.snd hOther⟩
  | cons fault rest =>
      obtain ⟨after, hAfter⟩ := hRun
      cases hAfter

theorem pure (value : α) : Costs (ε := ε) [] 0 (Pure.pure value : Pass ε α) :=
  fun _ => ⟨value, rfl⟩

theorem ofExcept_ok {result : Except ε α} {value : α} (h : result = .ok value) :
    Costs [] 0 (Pass.ofExcept result) :=
  fun _ => ⟨value, by rw [runIn_ofExcept, h]; rfl⟩

theorem ofExcept_error {result : Except ε α} {fault : ε} (h : result = .error fault) :
    Costs [fault] n (Pass.ofExcept result) :=
  fun context => ⟨context, by rw [runIn_ofExcept, h]⟩

/-- The faults of the second step come after those of the first, and the variables add up. -/
theorem bind {first : Pass ε α} {second : α → Pass ε β} (hFirst : Costs faults m first)
    (hSecond : ∀ value, Costs faults' n (second value)) :
    Costs (faults ++ faults') (m + n) (first >>= second) := by
  intro context
  have hRun := hFirst context
  cases faults with
  | cons fault rest =>
      obtain ⟨next, hNext⟩ := hRun
      exact ⟨next, runIn_bind_of_error hNext⟩
  | nil =>
      obtain ⟨value, hValue⟩ := hRun
      have hRest := hSecond value (context.advance m)
      have hAdvance : (context.advance m).advance n = context.advance (m + n) := by
        simp only [Context.advance, Nat.add_assoc]
      cases faults' with
      | cons fault rest =>
          obtain ⟨next, hNext⟩ := hRest
          exact ⟨next, (runIn_bind_of_ok hValue).trans hNext⟩
      | nil =>
          obtain ⟨result, hResult⟩ := hRest
          exact ⟨result, by rw [runIn_bind_of_ok hValue, hResult, hAdvance]⟩

/-- What is done with the result of a step without effects costs nothing more. -/
theorem bind_pure {step : Pass ε α} (h : Costs faults n step) (f : α → β) :
    Costs faults n (step >>= fun value => Pure.pure (f value)) := by
  have hBind : Costs (faults ++ []) (n + 0) (step >>= fun value => Pure.pure (f value)) :=
    h.bind fun value => Costs.pure (f value)
  rwa [List.append_nil, Nat.add_zero] at hBind

theorem mapError {step : Pass ε α} (f : ε → ε') (h : Costs faults n step) :
    Costs (faults.map f) n (step.mapError f) := by
  intro context
  have hRun := h context
  cases faults with
  | cons fault rest =>
      obtain ⟨next, hNext⟩ := hRun
      exact ⟨next, by rw [runIn_mapError, hNext]⟩
  | nil =>
      obtain ⟨value, hValue⟩ := hRun
      exact ⟨value, by rw [runIn_mapError, hValue]⟩

/-- Steps that cost one variable each cost one for each item of a list. -/
theorem mapM {f : α → Pass ε β} {faultsOf : α → List ε} (values : List α)
    (h : ∀ value ∈ values, Costs (faultsOf value) 1 (f value)) :
    Costs (values.flatMap faultsOf) values.length (values.mapM f) := by
  induction values with
  | nil => exact Costs.pure []
  | cons value rest ih =>
      have hRest := ih fun other hm => h other (List.mem_cons_of_mem _ hm)
      rw [List.mapM_cons, List.flatMap_cons, List.length_cons, Nat.add_comm]
      exact (h value List.mem_cons_self).bind fun first => hRest.bind_pure (first :: ·)

end Costs

end Pass

open Pass (Costs)

/-! ## Faults of expressions -/

/-- The fault of an expression that breaks the grammar. -/
def grammarFaults (expression : Expression) : List ExpressionError :=
  match expression.check with
  | .ok () => []
  | .error error => [error]

/-- The fault of an element without a persistent id. -/
def persistentIdFaults (element : Element) : List ExpressionError :=
  if element.persistentId?.isSome then [] else [.missingPersistentId]

/-- The fault of an expression that is no list: its result is not known, or of another kind. -/
def listFaults (resultType : Block.ResultType) (component : Component) (expression : Expression) :
    List ExpressionError :=
  match resultType expression component with
  | none => [.unknownResult expression]
  | some field => if field.kind = .list then [] else [.notAList expression field.kind]

theorem costs_assignment (element : Element) (expression : Expression) :
    Costs (grammarFaults expression) 1 (assignment element expression) := by
  intro context
  cases hCheck : expression.check with
  | error error =>
      rw [grammarFaults, hCheck]
      exact ⟨context, run_assignment_of_error element hCheck context⟩
  | ok value =>
      obtain ⟨head, path, filters, hHead, rfl⟩ := (Expression.check_eq_ok_iff _).1 hCheck
      rw [grammarFaults, hCheck]
      exact ⟨_, run_assignment_of_ok element hHead path filters context⟩

/-! ## Blocks -/

namespace Block

theorem costs_echo (element : Element) (expression : Expression) :
    Costs (grammarFaults expression) 1 (echo element expression) :=
  (costs_assignment element expression).bind_pure _

theorem costs_echoInline (element : Element) (expression : Expression) :
    Costs (grammarFaults expression) 1 (echoInline element expression) :=
  (costs_assignment element expression).bind_pure _

theorem costs_requirePersistentId (element : Element) :
    Costs (persistentIdFaults element) 0 (Pass.ofExcept (requirePersistentId element)) := by
  cases hId : element.persistentId? with
  | none =>
      rw [persistentIdFaults, hId]
      exact Costs.ofExcept_error (by rw [requirePersistentId, hId])
  | some id =>
      rw [persistentIdFaults, hId]
      exact Costs.ofExcept_ok (by rw [requirePersistentId, hId])

theorem costs_assign (stateId : String) (element : Element) (expression : Expression) :
    Costs (persistentIdFaults element ++ grammarFaults expression) 1
      (assign stateId element expression) := by
  unfold assign
  rw [← Nat.zero_add 1]
  exact (costs_requirePersistentId element).bind fun id =>
    (costs_assignment element expression).bind_pure _

theorem costs_requireList (resultType : ResultType) (component : Component)
    {expression : Expression} (hNonempty : expression.isEmpty = false) :
    Costs (listFaults resultType component expression) 0
      (Pass.ofExcept (requireList resultType component expression)) := by
  unfold listFaults
  cases hResult : resultType expression component with
  | none =>
      exact Costs.ofExcept_error (by simp only [requireList, hNonempty, hResult]; rfl)
  | some field =>
      by_cases hList : field.kind = .list
      · simp only [hList, ↓reduceIte]
        exact Costs.ofExcept_ok (by simp only [requireList, hNonempty, hResult, hList]; rfl)
      · simp only [hList, ↓reduceIte]
        exact Costs.ofExcept_error (by simp only [requireList, hNonempty, hResult, hList]; rfl)

theorem costs_loop (resultType : ResultType) (component : Component) {expression : Expression}
    (hNonempty : expression.isEmpty = false) :
    Costs (listFaults resultType component expression ++
        (persistentIdFaults component.element ++ grammarFaults expression)) 1
      (loop resultType component expression) := by
  unfold loop
  rw [← Nat.zero_add 1]
  refine (costs_requireList resultType component hNonempty).bind fun _ => ?_
  rw [← Nat.zero_add 1]
  exact (costs_requirePersistentId component.element).bind fun id =>
    (costs_assignment component.element expression).bind_pure _

/-- The faults of the second expression of a condition, when it compares. -/
def comparedFaults (condition : Condition) : List ExpressionError :=
  ((condition.compared?.map Prod.snd).map grammarFaults).getD []

theorem costs_conditional (element : Element) (condition : Condition) :
    Costs (grammarFaults condition.expression ++ comparedFaults condition)
      (1 + condition.compared?.isSome.toNat) (conditional element condition) := by
  unfold conditional comparedFaults
  refine (costs_assignment element condition.expression).bind fun left => ?_
  cases condition.compared? with
  | none => exact Costs.pure _
  | some compared => exact (costs_assignment element compared.2).bind_pure _

end Block

end PagePress
