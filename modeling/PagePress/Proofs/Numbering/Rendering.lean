import PagePress.Markup.Rendering
import PagePress.Proofs.Numbering.InStep
import PagePress.Proofs.Numbering.Markup

/-!
# Rendering is in step

Compiling an expression takes one variable, whose number stands in the statement and in what uses
it. Each block is in step with itself, then each part of a component, then the component, and by
induction the tree: rendered from two counters it fails with one error or gives alike markup.

## Main results

* `inStep_assignment` — the statement of an expression.
* `inStep_renderTree` — the markup of a tree.
-/

namespace PagePress

open Pairing (InStep)

variable {P : Pairing} {place : Nat}

/-! ## Statements -/

/-- Only the name of its variable in a statement depends on the variable. -/
theorem exists_statement_eq (expression : Expression) (receiver : String) :
    ∃ tail : Except ExpressionError String, ∀ name,
      expression.statement name receiver = tail.map fun rest => "assign " ++ name ++ rest := by
  let isPath := fun token : Token => !token.isFilter
  have hStatement : ∀ (filters : Except ExpressionError (List Filter))
      (steps : Except ExpressionError String), ∃ tail : Except ExpressionError String, ∀ name,
      (do
        let filters ← filters
        let steps ← steps
        return "assign " ++ name ++ " = " ++ Expression.receiverPrefix receiver ++ steps ++
          Expression.filterChain filters : Except ExpressionError String) =
        tail.map fun rest => "assign " ++ name ++ rest := by
    intro filters steps
    cases filters with
    | error e => exact ⟨.error e, fun _ => rfl⟩
    | ok filters =>
        cases steps with
        | error e => exact ⟨.error e, fun _ => rfl⟩
        | ok steps =>
            refine ⟨.ok (" = " ++ Expression.receiverPrefix receiver ++ steps ++
              Expression.filterChain filters), fun name => ?_⟩
            simp only [Except.map, bind, Except.bind, pure, Except.pure, String.append_assoc]
  cases expression with
  | nil => exact ⟨.error .empty, fun _ => rfl⟩
  | cons token rest =>
      cases token with
      | filter f => exact ⟨.error (ExpressionError.leadingFilter (.filter f :: rest)), fun _ => rfl⟩
      | property p => exact hStatement _ _
      | state s => exact hStatement _ _

/-- Statements whose variables and sources are alike. -/
structure AlikeStatement (P : Pairing) (bound : Nat) (s t : Statement) : Prop where
  name : P.Alike bound s.variableName t.variableName
  source : P.Alike bound s.source t.source

theorem inStep_assignment (element : Element) (expression : Expression) :
    P.InStep place (AlikeStatement P) (assignment element expression)
      (assignment element expression) := by
  unfold assignment
  refine (InStep.ofExcept _).bind fun _ _ _ _ _ => InStep.get.bind fun here c d _ hcd => ?_
  rw [hcd.1]
  obtain ⟨tail, hTail⟩ := exists_statement_eq expression (expression.receiver d.globalSources)
  refine (InStep.freshVariable element.id).bind fun after s t _ hst => ?_
  rw [hTail, hTail]
  refine (InStep.ofExcept_map (S := P.Alike) tail fun rest =>
    (hst.text_append "assign ").append_text rest).bind fun later x y hle hxy => ?_
  exact InStep.pure ⟨hst.mono hle, hxy⟩

/-! ## Blocks -/

namespace Block

theorem inStep_echo (element : Element) (expression : Expression) :
    P.InStep place P.Alike (echo element expression) (echo element expression) := by
  unfold echo
  refine (inStep_assignment element expression).bind fun after s t _ hst => InStep.pure ?_
  exact alike_liquidTag (.cons hst.source (.cons (hst.name.text_append "echo ") .nil))

theorem inStep_echoInline (element : Element) (expression : Expression) :
    P.InStep place P.Alike (echoInline element expression) (echoInline element expression) := by
  unfold echoInline
  refine (inStep_assignment element expression).bind fun after s t _ hst => InStep.pure ?_
  exact (((alike_tag hst.source).append_text _).append hst.name).append_text _

theorem inStep_assign (stateId : String) (element : Element) (expression : Expression) :
    P.InStep place P.Alike (assign stateId element expression)
      (assign stateId element expression) := by
  unfold assign
  refine (InStep.ofExcept _).bind fun _ id _ _ hId => ?_
  subst hId
  refine (inStep_assignment element expression).bind fun after s t _ hst => InStep.pure ?_
  exact alike_liquidTag (.cons hst.source (.cons (hst.name.text_append _) .nil))

/-- Wrappers with alike starts and alike ends. -/
structure AlikeWrapper (P : Pairing) (bound : Nat) (v w : Wrapper) : Prop where
  opening : P.Alike bound v.opening w.opening
  closing : P.Alike bound v.closing w.closing

theorem AlikeWrapper.mono {a b : Nat} {v w : Wrapper} (h : AlikeWrapper P a v w) (hab : a ≤ b) :
    AlikeWrapper P b v w :=
  ⟨h.opening.mono hab, h.closing.mono hab⟩

theorem AlikeWrapper.after {bound : Nat} {v w : Wrapper} (h : AlikeWrapper P bound v w)
    {xs ys : List String} (hs : List.Forall₂ (P.Alike bound) xs ys) :
    AlikeWrapper P bound (v.after xs) (w.after ys) :=
  ⟨((alike_liquidTag hs).append_text "\n").append h.opening, h.closing⟩

theorem inStep_loop (resultType : ResultType) (component : Component) (expression : Expression) :
    P.InStep place (AlikeWrapper P) (loop resultType component expression)
      (loop resultType component expression) := by
  unfold loop
  refine (InStep.ofExcept _).bind fun _ _ _ _ _ => (InStep.ofExcept _).bind fun _ id _ _ hId => ?_
  subst hId
  refine (inStep_assignment component.element expression).bind fun after s t _ hst =>
    InStep.pure ⟨?_, .refl _⟩
  exact ((alike_liquidTag (.cons hst.source .nil)).append_text "\n").append
    (alike_tag (hst.name.text_append _))

theorem alike_unaryTest {bound : Nat} (operator : Operator) {s t : String}
    (h : P.Alike bound s t) :
    AlikeWrapper P bound (unaryTest operator s) (unaryTest operator t) := by
  have hIf : AlikeWrapper P bound ⟨tag ("if " ++ s), tag "endif"⟩ ⟨tag ("if " ++ t), tag "endif"⟩ :=
    ⟨alike_tag (h.text_append _), .refl _⟩
  cases operator with
  | falsy => exact ⟨alike_tag (h.text_append _), .refl _⟩
  | emptyArray => exact ⟨alike_tag ((h.text_append _).append_text _), .refl _⟩
  | notEmptyArray => exact ⟨alike_tag ((h.text_append _).append_text _), .refl _⟩
  | _ => exact hIf

theorem alike_binaryTest {bound : Nat} (comparison : String) {s s' t t' : String}
    (hs : P.Alike bound s s') (ht : P.Alike bound t t') :
    AlikeWrapper P bound (binaryTest s comparison t) (binaryTest s' comparison t') :=
  ⟨alike_tag (((((hs.text_append _).append_text _).append_text _).append_text _).append ht),
    .refl _⟩

theorem inStep_conditional (element : Element) (condition : Condition) :
    P.InStep place (AlikeWrapper P) (conditional element condition)
      (conditional element condition) := by
  unfold conditional
  refine (inStep_assignment element condition.expression).bind fun here s t _ hst => ?_
  cases condition.compared? with
  | none => exact InStep.pure ((alike_unaryTest _ hst.name).after (.cons hst.source .nil))
  | some compared =>
      refine (inStep_assignment element compared.2).bind fun after u v hle huv => InStep.pure ?_
      exact (alike_binaryTest _ (hst.name.mono hle) huv.name).after
        (.cons (hst.source.mono hle) (.cons huv.source .nil))

end Block

/-! ## Components -/

namespace Markup

theorem inStep_onExpression {α : Type} {R : Nat → α → α → Prop} {step : Pass ExpressionError α}
    (h : P.InStep place R step step) : P.InStep place R (onExpression step) (onExpression step) :=
  h.mapError PublishError.expression

theorem inStep_renderContent (element : Element) {s t : String} (h : P.Alike place s t) :
    P.InStep place P.Alike (renderContent element s) (renderContent element t) := by
  unfold renderContent
  cases boundTo? element "innerHTML" with
  | none => exact InStep.pure h
  | some expression => exact inStep_onExpression (Block.inStep_echo element expression)

theorem inStep_renderCondition (element : Element) :
    P.InStep place (Block.AlikeWrapper P) (renderCondition element) (renderCondition element) := by
  unfold renderCondition
  cases condition? element with
  | none => exact InStep.pure ⟨.refl _, .refl _⟩
  | some condition => exact inStep_onExpression (Block.inStep_conditional element condition)

theorem inStep_renderLoop (resultType : Block.ResultType) (component : Component) :
    P.InStep place (Block.AlikeWrapper P) (renderLoop resultType component)
      (renderLoop resultType component) := by
  unfold renderLoop
  cases boundTo? component.element Block.loopState with
  | none => exact InStep.pure ⟨.refl _, .refl _⟩
  | some expression =>
      exact inStep_onExpression (Block.inStep_loop resultType component expression)

theorem inStep_renderState (element : Element) (state : StoredState) :
    P.InStep place P.Alike (renderState element state) (renderState element state) :=
  inStep_onExpression (Block.inStep_assign state.id element state.expression)

theorem inStep_renderAttribute (element : Element) (state : StoredState) :
    P.InStep place (AlikeBound P.first P.second) (renderAttribute element state)
      (renderAttribute element state) :=
  (inStep_onExpression (Block.inStep_echo element state.expression)).bind fun _ _ _ _ h =>
    InStep.pure ⟨rfl, h⟩

theorem inStep_renderElement (element : Element) (tag : String) {s t : String}
    (h : P.Alike place s t) :
    P.InStep place P.Alike (renderElement element tag s) (renderElement element tag t) := by
  unfold renderElement
  cases element.unwrap with
  | true => exact InStep.pure h
  | false =>
      refine (InStep.mapM (R := AlikeBound P.first P.second)
        (fun _ _ _ _ hle h => AlikeBound.mono hle h) _
        (fun state _ _ => inStep_renderAttribute element state) place).bind fun after _ _ hle hs =>
          InStep.pure ?_
      exact alike_tagged tag (alike_attributesText _ hs) (h.mono hle)

theorem inStep_renderComponent (resultType : Block.ResultType) (component : Component)
    {content content' fallback fallback' : String} (hContent : P.Alike place content content')
    (hFallback : P.Alike place fallback fallback') :
    P.InStep place P.Alike (renderComponent resultType component content fallback)
      (renderComponent resultType component content' fallback') := by
  cases hDynamic : isDynamic component.element with
  | false =>
      simp only [renderComponent, hDynamic, Bool.not_false, ↓reduceIte]
      exact InStep.pure hFallback
  | true =>
      simp only [renderComponent, hDynamic, Bool.not_true, Bool.false_eq_true, ↓reduceIte]
      refine (InStep.ofExcept _).bind fun _ tag _ hTag hEq => ?_
      subst hEq
      refine (inStep_renderContent _ (hContent.mono hTag)).bind fun a inner inner' _ hInner => ?_
      refine (inStep_renderCondition _).bind fun b condition condition' hb hCondition => ?_
      refine (inStep_renderLoop resultType component).bind fun c loop loop' hc hLoop => ?_
      refine (InStep.mapM (R := P.Alike) (fun _ _ _ _ hle h => Alike.mono h hle) _
        (fun state _ _ => inStep_renderState component.element state) c).bind
          fun d states states' hd hStates => ?_
      refine (inStep_renderElement _ tag (hInner.mono (by omega))).bind
        fun e body body' he hBody => InStep.pure ?_
      have hBefore := (Alike.intercalate "\n" (Alike.mono_list hStates he)).append
        (hLoop.opening.mono (Nat.le_trans hd he))
      have hCondition' := hCondition.mono (show b ≤ e by omega)
      exact (((hBefore.append hCondition'.opening).append hBody).append hCondition'.closing).append
        (hLoop.closing.mono (Nat.le_trans hd he))

/-! ## Trees -/

mutual

theorem inStep_renderTree (resultType : Block.ResultType) :
    ∀ (component : Component) (place : Nat),
      P.InStep place P.Alike (renderTree resultType component) (renderTree resultType component)
  | .node element children, place => by
      rw [renderTree]
      refine (inStep_renderTrees resultType children place).bind fun after s t _ hst => ?_
      have hContent := hst.text_append element.content
      exact inStep_renderComponent resultType _ hContent (alike_plainText element hContent)

theorem inStep_renderTrees (resultType : Block.ResultType) :
    ∀ (trees : List Component) (place : Nat),
      P.InStep place P.Alike (renderTrees resultType trees) (renderTrees resultType trees)
  | [], place => by
      rw [renderTrees]
      exact InStep.pure (.refl "")
  | tree :: trees, place => by
      rw [renderTrees]
      refine (inStep_renderTree resultType tree place).bind fun here s t _ hst => ?_
      refine (inStep_renderTrees resultType trees here).bind fun after u v hle huv => ?_
      exact InStep.pure ((hst.mono hle).append huv)

end

end Markup

end PagePress
