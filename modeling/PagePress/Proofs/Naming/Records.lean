import PagePress.FrontMatter
import PagePress.Markup.Rendering
import PagePress.Proofs.Numbering.Pattern
import PagePress.Proofs.Steps

/-!
# Names that are handed out

A record of a run lists the variable names that its steps take, in order. Fresh variables are the
only source of names: all other primitive steps hand out none, a sequence hands out the names of
its parts, and what a step has taken before it failed stays in the record. Whatever the steps and
however a run ends, its names are numbered one by one from the counter it started with up to the
counter it leaves. The number stands at the end of a name, behind the last underscore, so names
with different numbers are different whatever the ids of their elements are.

## Main results

* `variableName_number` — a name tells its number.
* `HandsOut.numbered` — the names of a run are numbered from counter to counter.
* `Numbered.nodup` — numbered names are distinct.
* `accountable_renderTree`, `accountable_frontMatter` — the steps of a pass have records.
-/

namespace PagePress

/-! ## Names -/

theorem toString_nat_inj {m n : Nat} (h : (toString m).toList = (toString n).toList) : m = n := by
  rw [Nat.toString_eq_repr, Nat.toString_eq_repr, Nat.toList_repr, Nat.toList_repr] at h
  have hDigits := congrArg (fun digits => Nat.ofDigitChars 10 digits 0) h
  simpa using hDigits

/-- Two texts with a separator between their parts are the same when their parts are, or when the
first part of one goes on with the separator and what the second part of the other starts with. -/
theorem append_separator_eq_iff {α : Type} {separator : α} {xs ys ms ns : List α} :
    xs ++ separator :: ms = ys ++ separator :: ns ↔
      (xs = ys ∧ ms = ns) ∨
      (∃ rest, ys = xs ++ separator :: rest ∧ ms = rest ++ separator :: ns) ∨
      ∃ rest, xs = ys ++ separator :: rest ∧ ns = rest ++ separator :: ms := by
  constructor
  · intro h
    rcases List.append_eq_append_iff.1 h with ⟨rest, hParts, hRest⟩ | ⟨rest, hParts, hRest⟩
    · cases rest with
      | nil => exact .inl ⟨by simpa using hParts.symm, (List.cons.inj hRest).2⟩
      | cons first rest =>
          obtain ⟨rfl, hBehind⟩ := List.cons.inj hRest
          exact .inr (.inl ⟨rest, hParts, hBehind⟩)
    · cases rest with
      | nil => exact .inl ⟨by simpa using hParts, (List.cons.inj hRest).2.symm⟩
      | cons first rest =>
          obtain ⟨rfl, hBehind⟩ := List.cons.inj hRest
          exact .inr (.inr ⟨rest, hParts, hBehind⟩)
  · rintro (⟨rfl, rfl⟩ | ⟨rest, rfl, rfl⟩ | ⟨rest, rfl, rfl⟩)
    · rfl
    · simp
    · simp

/-- What stands behind the last separator of a text is told by the text. -/
theorem eq_of_append_separator {α : Type} {separator : α} {xs ys ms ns : List α}
    (hm : separator ∉ ms) (hn : separator ∉ ns)
    (h : xs ++ separator :: ms = ys ++ separator :: ns) : ms = ns := by
  rcases append_separator_eq_iff.1 h with ⟨-, hEq⟩ | ⟨rest, -, rfl⟩ | ⟨rest, -, rfl⟩
  · exact hEq
  · exact absurd (List.mem_append_right rest List.mem_cons_self) hm
  · exact absurd (List.mem_append_right rest List.mem_cons_self) hn

/-- A name tells its number, whatever the ids are. -/
theorem variableName_number {firstId secondId : String} {m n : Nat}
    (h : variableName firstId m = variableName secondId n) : m = n := by
  have hText := congrArg String.toList h
  simp only [variableName, String.toList_append, List.append_assoc] at hText
  have hUnderscore : "_".toList = ['_'] := rfl
  rw [hUnderscore, List.singleton_append, List.singleton_append, ← List.append_assoc,
    ← List.append_assoc] at hText
  have hm : '_' ∉ (toString m).toList := not_mem_toString (by decide) m
  have hn : '_' ∉ (toString n).toList := not_mem_toString (by decide) n
  exact toString_nat_inj (eq_of_append_separator hm hn hText)

theorem variableName_ne_stateVariable (elementId persistentId stateId : String) (number : Nat) :
    variableName elementId number ≠ stateVariable persistentId stateId := by
  intro h
  have hFirst := congrArg (fun text : String => text.toList.head?) h
  simp [variableName, stateVariable] at hFirst

/-! ## Numbered names -/

/-- Names of some elements whose numbers go up one by one from a first one. The last number is the
one that is next. -/
inductive Numbered : Nat → List String → Nat → Prop
  | nil (start : Nat) : Numbered start [] start
  | cons {start next : Nat} {names : List String} (elementId : String)
      (h : Numbered (start + 1) names next) :
      Numbered start (variableName elementId start :: names) next

namespace Numbered

variable {start middle next : Nat} {names others : List String}

theorem append (h : Numbered start names middle) (hOthers : Numbered middle others next) :
    Numbered start (names ++ others) next := by
  induction h with
  | nil start => exact hOthers
  | cons elementId _ ih => exact .cons elementId (ih hOthers)

/-- A numbered name has a number that is not below the first one. -/
theorem exists_number (h : Numbered start names next) {name : String} (hm : name ∈ names) :
    ∃ elementId number, start ≤ number ∧ name = variableName elementId number := by
  induction h with
  | nil start => cases hm
  | @cons start next names elementId _ ih =>
      rcases List.mem_cons.1 hm with rfl | hm
      · exact ⟨elementId, start, Nat.le_refl start, rfl⟩
      · obtain ⟨otherId, number, hle, rfl⟩ := ih hm
        exact ⟨otherId, number, Nat.le_of_succ_le hle, rfl⟩

theorem nodup (h : Numbered start names next) : names.Nodup := by
  induction h with
  | nil start => exact List.nodup_nil
  | @cons start next names elementId h ih =>
      refine List.nodup_cons.2 ⟨?_, ih⟩
      intro hm
      obtain ⟨otherId, number, hle, hName⟩ := h.exists_number hm
      have hNumber := variableName_number hName
      omega

theorem stateVariable_not_mem (h : Numbered start names next) (persistentId stateId : String) :
    stateVariable persistentId stateId ∉ names := by
  intro hm
  obtain ⟨elementId, number, -, hName⟩ := h.exists_number hm
  exact variableName_ne_stateVariable elementId persistentId stateId number hName.symm

end Numbered

namespace Pass

variable {ε ε' α β : Type}

/-! ## Records -/

/-- A run of a step from a context hands out some names, in this order. The steps are those that all
others are built from; the one that takes a fresh variable hands out its result. -/
inductive HandsOut : {ε α : Type} → Pass ε α → Context → List String → Prop
  | fresh {ε : Type} {elementId name : String} {context next : Context}
      (hRun : (freshVariable elementId : Pass ε String).runIn context = (.ok name, next)) :
      HandsOut (freshVariable elementId : Pass ε String) context [name]
  | result {ε α : Type} (result : Except ε α) (context : Context) :
      HandsOut (ofExcept result) context []
  | context {ε : Type} (context : Context) : HandsOut (get : Pass ε Context) context []
  | salt {ε : Type} (context : Context) : HandsOut (drawSalt : Pass ε UInt32) context []
  | mapError {ε ε' α : Type} {step : Pass ε α} {context : Context} {names : List String}
      (f : ε → ε') (h : HandsOut step context names) : HandsOut (step.mapError f) context names
  | failed {ε α β : Type} {first : Pass ε α} {second : α → Pass ε β} {context next : Context}
      {names : List String} {error : ε} (hRun : first.runIn context = (.error error, next))
      (h : HandsOut first context names) : HandsOut (first >>= second) context names
  | sequence {ε α β : Type} {first : Pass ε α} {second : α → Pass ε β} {context next : Context}
      {names others : List String} {value : α} (hRun : first.runIn context = (.ok value, next))
      (h : HandsOut first context names) (hSecond : HandsOut (second value) next others) :
      HandsOut (first >>= second) context (names ++ others)

theorem nextVariable_drawSalt (context : Context) :
    ((drawSalt : Pass ε UInt32).runIn context).2.nextVariable = context.nextVariable := by
  rw [drawSalt, runIn_bind, runIn_get]
  cases hSalts : context.salts with
  | nil => simp only [hSalts]; rfl
  | cons salt salts => simp only [hSalts]; rfl

/-- Whether or not a step fails, the names that it hands out are numbered from the counter that it
started with up to the one that it leaves. -/
theorem HandsOut.numbered {step : Pass ε α} {context : Context} {names : List String}
    (h : HandsOut step context names) :
    Numbered context.nextVariable names (step.runIn context).2.nextVariable := by
  induction h with
  | @fresh ε elementId name context next hRun =>
      rw [hRun]
      cases hRun
      exact .cons elementId (.nil _)
  | result result context => exact .nil _
  | context context => exact .nil _
  | salt context =>
      rw [nextVariable_drawSalt]
      exact .nil _
  | @mapError ε ε' α step context names f _ ih =>
      have hSame : ((step.mapError f).runIn context).2 = (step.runIn context).2 := by
        rw [runIn_mapError]
        rcases step.runIn context with ⟨_ | _, _⟩ <;> rfl
      rw [hSame]
      exact ih
  | failed hRun _ ih =>
      rw [hRun] at ih
      rw [runIn_bind_of_error hRun]
      exact ih
  | sequence hRun _ _ ih ihSecond =>
      rw [hRun] at ih
      rw [runIn_bind_of_ok hRun]
      exact ih.append ihSecond

/-- Every run of a step has a record. -/
def Accountable (step : Pass ε α) : Prop :=
  ∀ context, ∃ names, HandsOut step context names

namespace Accountable

theorem ofExcept (result : Except ε α) : Accountable (Pass.ofExcept result) :=
  fun context => ⟨[], .result result context⟩

theorem pure (value : α) : Accountable (Pure.pure value : Pass ε α) :=
  ofExcept (.ok value)

theorem throw (error : ε) : Accountable (MonadExcept.throw error : Pass ε α) :=
  ofExcept (.error error)

theorem get : Accountable (MonadState.get : Pass ε Context) :=
  fun context => ⟨[], .context context⟩

theorem drawSalt : Accountable (PagePress.drawSalt : Pass ε UInt32) :=
  fun context => ⟨[], .salt context⟩

theorem freshVariable (elementId : String) :
    Accountable (PagePress.freshVariable elementId : Pass ε String) :=
  fun context => ⟨_, .fresh (run_freshVariable elementId context)⟩

theorem mapError {step : Pass ε α} (f : ε → ε') (h : Accountable step) :
    Accountable (step.mapError f) := by
  intro context
  obtain ⟨names, hNames⟩ := h context
  exact ⟨names, hNames.mapError f⟩

theorem bind {first : Pass ε α} {second : α → Pass ε β} (h : Accountable first)
    (hSecond : ∀ value, Accountable (second value)) : Accountable (first >>= second) := by
  intro context
  obtain ⟨names, hNames⟩ := h context
  rcases hRun : first.runIn context with ⟨error | value, next⟩
  · exact ⟨names, .failed hRun hNames⟩
  · obtain ⟨others, hOthers⟩ := hSecond value next
    exact ⟨names ++ others, .sequence hRun hNames hOthers⟩

theorem mapM {f : α → Pass ε β} {values : List α} (h : ∀ value, Accountable (f value)) :
    Accountable (values.mapM f) := by
  induction values with
  | nil => exact Accountable.pure []
  | cons value rest ih =>
      rw [List.mapM_cons]
      exact (h value).bind fun _ => ih.bind fun _ => Accountable.pure _

end Accountable

end Pass

open Pass (Accountable)

/-! ## Expressions and blocks -/

theorem accountable_assignment (element : Element) (expression : Expression) :
    Accountable (assignment element expression) := by
  unfold assignment
  refine (Accountable.ofExcept _).bind fun _ => Accountable.get.bind fun context => ?_
  exact (Accountable.freshVariable element.id).bind fun name =>
    (Accountable.ofExcept _).bind fun source => Accountable.pure _

namespace Block

theorem accountable_echo (element : Element) (expression : Expression) :
    Accountable (echo element expression) :=
  (accountable_assignment element expression).bind fun _ => Accountable.pure _

theorem accountable_echoInline (element : Element) (expression : Expression) :
    Accountable (echoInline element expression) :=
  (accountable_assignment element expression).bind fun _ => Accountable.pure _

theorem accountable_assign (stateId : String) (element : Element) (expression : Expression) :
    Accountable (assign stateId element expression) :=
  (Accountable.ofExcept _).bind fun _ =>
    (accountable_assignment element expression).bind fun _ => Accountable.pure _

theorem accountable_loop (resultType : ResultType) (component : Component)
    (expression : Expression) : Accountable (loop resultType component expression) :=
  (Accountable.ofExcept _).bind fun _ => (Accountable.ofExcept _).bind fun _ =>
    (accountable_assignment component.element expression).bind fun _ => Accountable.pure _

theorem accountable_conditional (element : Element) (condition : Condition) :
    Accountable (conditional element condition) := by
  unfold conditional
  refine (accountable_assignment element condition.expression).bind fun left => ?_
  cases condition.compared? with
  | none => exact Accountable.pure _
  | some compared =>
      exact (accountable_assignment element compared.2).bind fun _ => Accountable.pure _

end Block

/-! ## Rendering -/

namespace Markup

variable (resultType : Block.ResultType)

theorem accountable_renderContent (element : Element) (content : String) :
    Accountable (renderContent element content) := by
  unfold renderContent
  cases boundTo? element "innerHTML" with
  | none => exact Accountable.pure content
  | some expression => exact (Block.accountable_echo element expression).mapError _

theorem accountable_renderCondition (element : Element) :
    Accountable (renderCondition element) := by
  unfold renderCondition
  cases condition? element with
  | none => exact Accountable.pure _
  | some condition => exact (Block.accountable_conditional element condition).mapError _

theorem accountable_renderLoop (component : Component) :
    Accountable (renderLoop resultType component) := by
  unfold renderLoop
  cases boundTo? component.element Block.loopState with
  | none => exact Accountable.pure _
  | some expression =>
      exact (Block.accountable_loop resultType component expression).mapError _

theorem accountable_renderElement (element : Element) (tag content : String) :
    Accountable (renderElement element tag content) := by
  unfold renderElement
  cases element.unwrap with
  | true => exact Accountable.pure content
  | false =>
      have hAttribute : ∀ state, Accountable (renderAttribute element state) := fun state =>
        ((Block.accountable_echo element state.expression).mapError _).bind fun _ =>
          Accountable.pure _
      exact (Accountable.mapM hAttribute).bind fun _ => Accountable.pure _

theorem accountable_renderComponent (component : Component) (content fallback : String) :
    Accountable (renderComponent resultType component content fallback) := by
  cases hDynamic : isDynamic component.element with
  | false =>
      simp only [renderComponent, hDynamic, Bool.not_false, ↓reduceIte]
      exact Accountable.pure fallback
  | true =>
      simp only [renderComponent, hDynamic, Bool.not_true, Bool.false_eq_true, ↓reduceIte]
      have hState : ∀ state, Accountable (renderState component.element state) := fun state =>
        (Block.accountable_assign state.id component.element state.expression).mapError _
      refine (Accountable.ofExcept _).bind fun tag => ?_
      refine (accountable_renderContent component.element content).bind fun inner => ?_
      refine (accountable_renderCondition component.element).bind fun condition => ?_
      refine (accountable_renderLoop resultType component).bind fun loop => ?_
      refine (Accountable.mapM hState).bind fun states => ?_
      exact (accountable_renderElement component.element tag inner).bind fun body =>
        Accountable.pure _

mutual

theorem accountable_renderTree :
    ∀ tree : Component, Accountable (renderTree resultType tree)
  | .node element children => by
      rw [renderTree]
      exact (accountable_renderTrees children).bind fun _ =>
        accountable_renderComponent resultType _ _ _

theorem accountable_renderTrees :
    ∀ trees : List Component, Accountable (renderTrees resultType trees)
  | [] => by
      rw [renderTrees]
      exact Accountable.pure ""
  | tree :: trees => by
      rw [renderTrees]
      exact (accountable_renderTree tree).bind fun _ =>
        (accountable_renderTrees trees).bind fun _ => Accountable.pure _

end

end Markup

/-! ## Front matter -/

namespace FrontMatter

theorem accountable_permalink (settings : PageSettings) (slug : String) (body : Element) :
    Accountable (permalink settings slug body) := by
  have hPrinted : ∀ expression, Accountable
      ((Block.echoInline body expression).mapError PublishError.expression) := fun expression =>
    (Block.accountable_echoInline body expression).mapError _
  have hExpression : ∀ expression, Accountable (expressionPermalink body expression) := by
    intro expression
    unfold expressionPermalink
    split
    · split
      · exact Accountable.pure _
      · exact hPrinted _
    · exact hPrinted _
  unfold permalink
  refine (Accountable.ofExcept _).bind fun own => ?_
  cases own with
  | none => exact Accountable.pure _
  | some setting =>
      cases setting with
      | text text => exact Accountable.pure _
      | expression expression =>
          exact (hExpression expression).bind fun _ => Accountable.pure _

end FrontMatter

theorem accountable_frontMatter (options : Options) (settings : PageSettings) (slug : String)
    (body : Element) (collection lang : Option String) :
    Accountable (frontMatter options settings slug body collection lang) :=
  (Accountable.ofExcept _).bind fun _ =>
    (FrontMatter.accountable_permalink settings slug body).bind fun _ => Accountable.pure _

end PagePress
