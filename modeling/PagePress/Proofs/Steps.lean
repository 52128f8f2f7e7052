import PagePress.Pass

/-!
# Running steps

What the steps of a pass do in a context, one equation for each way to build a step. Later modules
take steps apart by these equations and do not look into the monad.

## Main results

* `runIn_bind` — the second step runs in the context that the first one left, unless it failed.
* `Returns.bind`, `Raises.bind` — what the results and the errors of steps in sequence are like.
* `Keeps.bind` — steps that leave the context as it is do so in sequence.
-/

namespace PagePress

/-- Two results in sequence give a value through a value of the first. -/
theorem exists_of_bind_eq_ok {ε α β : Type} {first : Except ε α} {second : α → Except ε β}
    {value : β} (h : first >>= second = .ok value) :
    ∃ middle, first = .ok middle ∧ second middle = .ok value := by
  cases first with
  | error error => cases h
  | ok middle => exact ⟨middle, rfl, h⟩

end PagePress

namespace PagePress.Pass

variable {ε ε' α β : Type}

@[simp] theorem runIn_pure (value : α) (context : Context) :
    (pure value : Pass ε α).runIn context = (.ok value, context) := rfl

@[simp] theorem runIn_get (context : Context) :
    (get : Pass ε Context).runIn context = (.ok context, context) := rfl

@[simp] theorem runIn_ofExcept (result : Except ε α) (context : Context) :
    (ofExcept result).runIn context = (result, context) := rfl

theorem runIn_bind (first : Pass ε α) (second : α → Pass ε β) (context : Context) :
    (first >>= second).runIn context =
      match first.runIn context with
      | (.ok value, next) => (second value).runIn next
      | (.error error, next) => (.error error, next) := by
  simp only [runIn, ExceptT.run, bind, ExceptT.bind, ExceptT.mk, StateT.run, StateT.bind,
    ExceptT.bindCont]
  rcases first context with ⟨result, next⟩
  cases result <;> rfl

theorem runIn_bind_of_ok {first : Pass ε α} {second : α → Pass ε β} {context next : Context}
    {value : α} (h : first.runIn context = (.ok value, next)) :
    (first >>= second).runIn context = (second value).runIn next := by
  rw [runIn_bind, h]

theorem runIn_bind_of_error {first : Pass ε α} {second : α → Pass ε β} {context next : Context}
    {error : ε} (h : first.runIn context = (.error error, next)) :
    (first >>= second).runIn context = (.error error, next) := by
  rw [runIn_bind, h]

/-- A step in sequence that gives a result goes through a result of the first step. -/
theorem runIn_bind_eq_ok {first : Pass ε α} {second : α → Pass ε β} {context next : Context}
    {value : β} (h : (first >>= second).runIn context = (.ok value, next)) :
    ∃ middle between, first.runIn context = (.ok middle, between) ∧
      (second middle).runIn between = (.ok value, next) := by
  rw [runIn_bind] at h
  rcases hFirst : first.runIn context with ⟨error | middle, between⟩
  · rw [hFirst] at h
    cases h
  · rw [hFirst] at h
    exact ⟨middle, between, rfl, h⟩

theorem runIn_mapError (f : ε → ε') (step : Pass ε α) (context : Context) :
    (step.mapError f).runIn context =
      match step.runIn context with
      | (.ok value, next) => (.ok value, next)
      | (.error error, next) => (.error (f error), next) := by
  have hPair : (step.mapError f).runIn context =
      ((step.runIn context).1.mapError f, (step.runIn context).2) := rfl
  rw [hPair]
  rcases step.runIn context with ⟨result, next⟩
  cases result <;> rfl

/-! ## Results of steps -/

/-- Every result of a step has a property. -/
def Returns (property : α → Prop) (step : Pass ε α) : Prop :=
  ∀ context value next, step.runIn context = (.ok value, next) → property value

namespace Returns

variable {property : α → Prop}

theorem pure {value : α} (h : property value) : Returns property (Pure.pure value : Pass ε α) := by
  intro context other next hRun
  cases hRun
  exact h

theorem bind {goal : β → Prop} {first : Pass ε α} {second : α → Pass ε β}
    (hFirst : Returns property first) (hSecond : ∀ value, property value →
      Returns goal (second value)) : Returns goal (first >>= second) := by
  intro context value next h
  obtain ⟨middle, between, hRun, hRest⟩ := runIn_bind_eq_ok h
  exact hSecond middle (hFirst context middle between hRun) between value next hRest

theorem any (step : Pass ε α) : Returns (fun _ => True) step :=
  fun _ _ _ _ => trivial

theorem ofExcept {result : Except ε α} (h : ∀ value, result = .ok value → property value) :
    Returns property (Pass.ofExcept result) := by
  intro context value next hRun
  rw [runIn_ofExcept] at hRun
  exact h value (congrArg Prod.fst hRun)

theorem mapError {step : Pass ε α} (f : ε → ε') (h : Returns property step) :
    Returns property (step.mapError f) := by
  intro context value next hRun
  rw [runIn_mapError] at hRun
  rcases hStep : step.runIn context with ⟨_ | other, after⟩
  · rw [hStep] at hRun
    cases hRun
  · rw [hStep] at hRun
    cases hRun
    exact h context value next hStep

theorem mapM {property : β → Prop} {f : α → Pass ε β} {values : List α}
    (h : ∀ value ∈ values, Returns property (f value)) :
    Returns (fun results => ∀ result ∈ results, property result) (values.mapM f) := by
  induction values with
  | nil =>
      rw [List.mapM_nil]
      exact Returns.pure fun result hm => absurd hm List.not_mem_nil
  | cons value rest ih =>
      have hRest := ih fun other hm => h other (List.mem_cons_of_mem _ hm)
      rw [List.mapM_cons]
      refine (h value List.mem_cons_self).bind fun first hFirst =>
        hRest.bind fun others hOthers => Returns.pure fun result hm => ?_
      rcases List.mem_cons.1 hm with rfl | hm
      · exact hFirst
      · exact hOthers result hm

end Returns

/-! ## Errors of steps -/

/-- The error of a step in a context, when it fails there. -/
def fault? (step : Pass ε α) (context : Context) : Option ε :=
  match step.runIn context with
  | (.ok _, _) => none
  | (.error error, _) => some error

theorem fault?_of_ok {step : Pass ε α} {context next : Context} {value : α}
    (h : step.runIn context = (.ok value, next)) : step.fault? context = none := by
  rw [fault?, h]

theorem fault?_of_error {step : Pass ε α} {context next : Context} {error : ε}
    (h : step.runIn context = (.error error, next)) : step.fault? context = some error := by
  rw [fault?, h]

theorem fault?_eq_none {step : Pass ε α} {context : Context} (h : step.fault? context = none) :
    ∃ value next, step.runIn context = (.ok value, next) := by
  rcases hRun : step.runIn context with ⟨error | value, next⟩
  · rw [fault?_of_error hRun] at h
    cases h
  · exact ⟨value, next, rfl⟩

theorem fault?_eq_some {step : Pass ε α} {context : Context} {error : ε}
    (h : step.fault? context = some error) : ∃ next, step.runIn context = (.error error, next) := by
  rcases hRun : step.runIn context with ⟨other | value, next⟩
  · rw [fault?_of_error hRun] at h
    cases h
    exact ⟨next, rfl⟩
  · rw [fault?_of_ok hRun] at h
    cases h

theorem fault?_bind_of_ok {first : Pass ε α} {second : α → Pass ε β} {context next : Context}
    {value : α} (h : first.runIn context = (.ok value, next)) :
    (first >>= second).fault? context = (second value).fault? next := by
  rw [fault?, runIn_bind, h, fault?]

theorem fault?_bind_of_error {first : Pass ε α} {second : α → Pass ε β} {context : Context}
    {error : ε} (h : first.fault? context = some error) :
    (first >>= second).fault? context = some error := by
  obtain ⟨next, hRun⟩ := fault?_eq_some h
  rw [fault?, runIn_bind, hRun]

/-- What is done with the result of a step without effects adds no fault. -/
theorem fault?_bind_pure (step : Pass ε α) (f : α → β) (context : Context) :
    (step >>= fun value => Pure.pure (f value)).fault? context = step.fault? context := by
  cases hStep : step.fault? context with
  | some error => exact fault?_bind_of_error hStep
  | none =>
      obtain ⟨value, next, hRun⟩ := fault?_eq_none hStep
      rw [fault?_bind_of_ok hRun]
      rfl

/-- Every error of a step has a property. -/
def Raises (property : ε → Prop) (step : Pass ε α) : Prop :=
  ∀ context error next, step.runIn context = (.error error, next) → property error

namespace Raises

variable {property : ε → Prop}

theorem pure (value : α) : Raises property (Pure.pure value : Pass ε α) := by
  intro context error next h
  cases h

theorem ofExcept {result : Except ε α} (h : ∀ error, result = .error error → property error) :
    Raises property (Pass.ofExcept result) := by
  intro context error next hRun
  rw [runIn_ofExcept] at hRun
  exact h error (congrArg Prod.fst hRun)

theorem bind {first : Pass ε α} {second : α → Pass ε β} (hFirst : Raises property first)
    (hSecond : ∀ value, Raises property (second value)) :
    Raises property (first >>= second) := by
  intro context error next h
  rw [runIn_bind] at h
  rcases hRun : first.runIn context with ⟨_ | value, middle⟩
  · rw [hRun] at h
    cases h
    exact hFirst context _ _ hRun
  · rw [hRun] at h
    exact hSecond value middle error next h

theorem mapError {f : ε' → ε} {step : Pass ε' α} (h : ∀ error, property (f error)) :
    Raises property (step.mapError f) := by
  intro context error next hRun
  rw [runIn_mapError] at hRun
  rcases hStep : step.runIn context with ⟨_ | value, after⟩
  · rw [hStep] at hRun
    cases hRun
    exact h _
  · rw [hStep] at hRun
    cases hRun

theorem mapM {f : α → Pass ε β} {values : List α} (h : ∀ value, Raises property (f value)) :
    Raises property (values.mapM f) := by
  induction values with
  | nil => exact Raises.pure []
  | cons value rest ih =>
      rw [List.mapM_cons]
      exact (h value).bind fun _ => ih.bind fun _ => Raises.pure _

end Raises

/-! ## Contexts after steps -/

/-- A step leaves every context as it is, whether it fails or not. -/
def Keeps (step : Pass ε α) : Prop :=
  ∀ context, (step.runIn context).2 = context

namespace Keeps

theorem pure (value : α) : Keeps (Pure.pure value : Pass ε α) := fun _ => rfl

theorem throw (error : ε) : Keeps (MonadExcept.throw error : Pass ε α) := fun _ => rfl

theorem bind {first : Pass ε α} {second : α → Pass ε β} (hFirst : Keeps first)
    (hSecond : ∀ value, Keeps (second value)) : Keeps (first >>= second) := by
  intro context
  have hContext := hFirst context
  rw [runIn_bind]
  rcases hRun : first.runIn context with ⟨error | value, next⟩
  · rw [hRun] at hContext
    exact hContext
  · rw [hRun] at hContext
    obtain rfl : next = context := hContext
    exact hSecond value next

end Keeps

end PagePress.Pass
