import PagePress.Proofs.Nesting.Markup

/-!
# Rendered markup is well nested

A block is given by its start and its end, which a component puts around its tag: the loop around
the condition, the condition around the tag. So what a component renders to is well nested when its
content is. Its content are its children, rendered, or a value, and induction on the tree gives the
rest.

## Main results

* `loop_returns`, `conditional_returns` — start and end of a block belong together.
* `renderComponent_returns` — a component around well nested content.
* `renderTree_balanced` — the block tags of a rendered tree are balanced.
-/

namespace PagePress.Nesting

open Pass (Returns)

/-! ## Wrappers -/

/-- What is well nested stays so between a start and an end. -/
def Wraps (wrapper : Block.Wrapper) : Prop :=
  ∀ inner, WellNested inner → WellNested (wrapper.opening ++ inner ++ wrapper.closing)

namespace Wraps

theorem none : Wraps .none := by
  intro inner h
  rwa [Block.Wrapper.none, String.empty_append, String.append_empty]

theorem of_tags {kind : BlockKind} {start finish : String} (hStart : Reads start [.opening kind])
    (hFinish : Reads finish [.closing kind]) : Wraps ⟨start, finish⟩ :=
  fun _ h => h.around hStart hFinish

/-- Statements before the start change nothing. -/
theorem after {test : Block.Wrapper} (h : Wraps test) {statements : List String}
    (hStatements : ∀ text ∈ statements, IsPlain text) : Wraps (test.after statements) := by
  intro inner hInner
  have hLiquid : WellNested (Block.liquidTag statements) :=
    .of_silent (silent_liquidTag hStatements)
  have hBreak : WellNested "\n" := .of_silent (.of_isPlain (by decide))
  have hText : (test.after statements).opening ++ inner ++ (test.after statements).closing =
      Block.liquidTag statements ++ ("\n" ++ (test.opening ++ inner ++ test.closing)) := by
    simp only [Block.Wrapper.after, String.append_assoc]
  rw [hText]
  exact hLiquid.append (hBreak.append (h inner hInner))

end Wraps

/-! ## Tags of blocks -/

/-- The first word of the start of a block, which its end has after `end`. -/
def BlockKind.word : BlockKind → String
  | .loop => "for"
  | .condition => "if"
  | .negation => "unless"

/-- The start and the end of a block of one kind. -/
theorem wraps_block (kind : BlockKind) {start finish rest : String}
    (hStart : start = kind.word ++ " ") (hFinish : finish = "end" ++ kind.word)
    (hRest : IsPlain rest) : Wraps ⟨Block.tag (start ++ rest), Block.tag finish⟩ := by
  subst hFinish
  have hOpening : Reads (Block.tag (start ++ rest)) [.opening kind] := by
    cases kind <;> exact reads_tag _ (by decide) (by decide) (by decide) hStart hRest
  have hClosing : Reads (Block.tag ("end" ++ kind.word)) [.closing kind] := by
    cases kind <;> exact reads_name _ (by decide) (by decide) (by decide)
  exact .of_tags hOpening hClosing

theorem wraps_if {test : String} (h : IsPlain test) :
    Wraps ⟨Block.tag ("if " ++ test), Block.tag "endif"⟩ :=
  wraps_block .condition (by decide) (by decide) h

/-- Only `falsy` is tested by a block of another name, and that block has its own end. -/
theorem wraps_unaryTest (operator : Operator) {name : String} (h : IsPlain name) :
    Wraps (Block.unaryTest operator name) := by
  have hSize : IsPlain ".size == 0" := by decide
  have hSome : IsPlain ".size > 0" := by decide
  cases operator with
  | falsy => exact wraps_block .negation (by decide) (by decide) h
  | emptyArray =>
      have hTest := wraps_if (h.append hSize)
      rwa [← String.append_assoc] at hTest
  | notEmptyArray =>
      have hTest := wraps_if (h.append hSome)
      rwa [← String.append_assoc] at hTest
  | _ => exact wraps_if h

theorem wraps_binaryTest {left comparison right : String} (hLeft : IsPlain left)
    (hComparison : IsPlain comparison) (hRight : IsPlain right) :
    Wraps (Block.binaryTest left comparison right) := by
  have hBlank : IsPlain " " := by decide
  have hTest := wraps_if
    ((((hLeft.append hBlank).append hComparison).append hBlank).append hRight)
  rwa [← String.append_assoc, ← String.append_assoc, ← String.append_assoc,
    ← String.append_assoc] at hTest

/-! ## Blocks -/

/-- An expression has plain texts only. -/
def PlainExpression (expression : Expression) : Prop := ∀ token ∈ expression, PlainToken token

theorem echo_returns {element : Element} (h : PlainElement element) {expression : Expression}
    (hTokens : PlainExpression expression) : Returns Silent (Block.echo element expression) := by
  have hEcho : IsPlain "echo " := by decide
  refine (assignment_returns h.id hTokens).bind fun statement hStatement => Returns.pure ?_
  exact silent_liquidTag (List.forall_mem_cons.2
    ⟨hStatement.2, List.forall_mem_singleton.2 (hEcho.append hStatement.1)⟩)

theorem requirePersistentId_returns {element : Element} (h : PlainElement element) :
    Returns IsPlain (Pass.ofExcept (Block.requirePersistentId element)) := by
  refine Returns.ofExcept fun id hId => ?_
  unfold Block.requirePersistentId at hId
  split at hId
  · rename_i other hPresent
    cases hId
    exact h.persistentId hPresent
  · cases hId

theorem assign_returns {element : Element} (h : PlainElement element) {stateId : String}
    (hState : IsPlain stateId) {expression : Expression} (hTokens : PlainExpression expression) :
    Returns Silent (Block.assign stateId element expression) := by
  have hAssign : IsPlain "assign " := by decide
  refine (requirePersistentId_returns h).bind fun id hId =>
    (assignment_returns h.id hTokens).bind fun statement hStatement => Returns.pure ?_
  have hPublished := ((hAssign.append (isPlain_stateVariable hId hState)).append
    (show IsPlain " = " by decide)).append hStatement.1
  exact silent_liquidTag (List.forall_mem_cons.2
    ⟨hStatement.2, List.forall_mem_singleton.2 hPublished⟩)

theorem loop_returns (resultType : Block.ResultType) {component : Component}
    (h : PlainElement component.element) {expression : Expression}
    (hTokens : PlainExpression expression) :
    Returns Wraps (Block.loop resultType component expression) := by
  refine (Returns.any _).bind fun _ _ => (requirePersistentId_returns h).bind fun id hId =>
    (assignment_returns h.id hTokens).bind fun statement hStatement => Returns.pure ?_
  have hItem := isPlain_stateVariable hId (show IsPlain Block.loopState by decide)
  have hItems := (hItem.append (show IsPlain " in " by decide)).append hStatement.1
  have hTags := wraps_block .loop (show "for " = "for" ++ " " by decide)
    (show "endfor" = "end" ++ "for" by decide) hItems
  rw [← String.append_assoc, ← String.append_assoc] at hTags
  exact hTags.after (List.forall_mem_singleton.2 hStatement.2)

theorem isPlain_comparison {operator : Operator} {comparison : String}
    (h : operator.comparison? = some comparison) : IsPlain comparison := by
  cases operator <;> cases h <;> decide

theorem compared?_eq_some {condition : Block.Condition} {comparison : String}
    {second : Expression} (h : condition.compared? = some (comparison, second)) :
    condition.operator.comparison? = some comparison ∧ condition.second = some second := by
  unfold Block.Condition.compared? at h
  obtain ⟨sign, hSign, h⟩ := Option.bind_eq_some_iff.1 h
  obtain ⟨other, hOther, h⟩ := Option.bind_eq_some_iff.1 h
  cases h
  exact ⟨hSign, (Option.filter_eq_some_iff.1 hOther).1⟩

theorem conditional_returns {element : Element} (h : PlainElement element)
    {condition : Block.Condition} (hTokens : PlainExpression condition.expression)
    (hSecond : ∀ second, condition.second = some second → PlainExpression second) :
    Returns Wraps (Block.conditional element condition) := by
  unfold Block.conditional
  refine (assignment_returns h.id hTokens).bind fun left hLeft => ?_
  cases hCompared : condition.compared? with
  | none =>
      exact Returns.pure ((wraps_unaryTest condition.operator hLeft.1).after
        (List.forall_mem_singleton.2 hLeft.2))
  | some compared =>
      obtain ⟨hSign, hPresent⟩ := compared?_eq_some hCompared
      have hComparison := isPlain_comparison hSign
      refine (assignment_returns h.id (hSecond _ hPresent)).bind fun right hRight =>
        Returns.pure ?_
      exact (wraps_binaryTest hLeft.1 hComparison hRight.1).after (List.forall_mem_cons.2
        ⟨hLeft.2, List.forall_mem_singleton.2 hRight.2⟩)

/-! ## Components -/

open Markup

theorem plainExpression_of_mem {element : Element} (h : PlainElement element)
    {state : StoredState} (hState : state ∈ element.privateStates ++ element.publicStates) :
    PlainExpression state.expression := by
  intro token hToken text hText
  have hTexts : text ∈ state.expression.flatMap Token.texts :=
    List.mem_flatMap.2 ⟨token, hToken, hText⟩
  exact h.state_mem hState text (List.mem_cons_of_mem _ (List.mem_cons_of_mem _ hTexts))

theorem plainExpression_boundTo? {element : Element} (h : PlainElement element) {role : String}
    {expression : Expression} (hBound : boundTo? element role = some expression) :
    PlainExpression expression := by
  obtain ⟨state, hFind, rfl⟩ := Option.map_eq_some_iff.1 hBound
  have hPrivate := (List.mem_filter.1 (List.mem_of_find?_eq_some hFind)).1
  exact plainExpression_of_mem h (List.mem_append_left _ hPrivate)

theorem renderContent_returns {element : Element} (h : PlainElement element) {content : String}
    (hContent : WellNested content) : Returns WellNested (renderContent element content) := by
  unfold renderContent
  cases hBound : boundTo? element "innerHTML" with
  | none => exact Returns.pure hContent
  | some expression =>
      have hEcho := echo_returns h (plainExpression_boundTo? h hBound)
      exact Returns.mapError _ fun context text next hRun =>
        .of_silent (hEcho context text next hRun)

theorem renderCondition_returns {element : Element} (h : PlainElement element) :
    Returns Wraps (renderCondition element) := by
  unfold renderCondition
  cases hCondition : condition? element with
  | none => exact Returns.pure Wraps.none
  | some condition =>
      obtain ⟨expression, hBound, rfl⟩ := Option.map_eq_some_iff.1 hCondition
      have hSecond : ∀ second, (if (element.operator.getD .truthy).isBinary then
          boundTo? element "condition2" else none) = some second → PlainExpression second := by
        intro second hFound
        split at hFound
        · exact plainExpression_boundTo? h hFound
        · cases hFound
      exact (conditional_returns h (plainExpression_boundTo? h hBound) hSecond).mapError _

theorem renderLoop_returns (resultType : Block.ResultType) {component : Component}
    (h : PlainElement component.element) : Returns Wraps (renderLoop resultType component) := by
  unfold renderLoop
  cases hBound : boundTo? component.element Block.loopState with
  | none => exact Returns.pure Wraps.none
  | some expression =>
      exact (loop_returns resultType h (plainExpression_boundTo? h hBound)).mapError _

theorem renderState_returns {element : Element} (h : PlainElement element) {state : StoredState}
    (hState : state ∈ element.publicStates) : Returns Silent (renderState element state) := by
  have hStates : state ∈ element.privateStates ++ element.publicStates :=
    List.mem_append_right _ hState
  exact (assign_returns h (h.state_mem hStates _ List.mem_cons_self)
    (plainExpression_of_mem h hStates)).mapError _

theorem renderAttribute_returns {element : Element} (h : PlainElement element)
    {state : StoredState} (hState : state ∈ element.privateStates) :
    Returns (fun bound => Silent bound.name ∧ Silent bound.value)
      (renderAttribute element state) := by
  have hStates : state ∈ element.privateStates ++ element.publicStates :=
    List.mem_append_left _ hState
  have hLabel : IsPlain state.labelText :=
    h.state_mem hStates _ (List.mem_cons_of_mem _ List.mem_cons_self)
  exact ((echo_returns h (plainExpression_of_mem h hStates)).mapError _).bind
    fun value hValue => Returns.pure ⟨.of_isPlain hLabel, hValue⟩

theorem renderElement_returns {element : Element} (h : PlainElement element) {tag content : String}
    (hTag : IsPlain tag) (hContent : WellNested content) :
    Returns WellNested (renderElement element tag content) := by
  unfold renderElement
  cases element.unwrap with
  | true => exact Returns.pure hContent
  | false =>
      refine (Returns.mapM fun state hm => renderAttribute_returns h ?_).bind
        fun bound hBound => Returns.pure ?_
      · exact (List.mem_filter.1 (List.mem_filter.1 hm).1).1
      · exact wellNested_tagged hTag
          (silent_attributesText (silentEntries_staticAttributes h) hBound) hContent

theorem requireTag_returns {element : Element} (h : PlainElement element) :
    Returns IsPlain (Pass.ofExcept (requireTag element)) := by
  refine Returns.ofExcept fun tag hTag => ?_
  unfold requireTag at hTag
  split at hTag
  · rename_i name hName
    cases hTag
    exact h.tag hName
  · cases hTag

/-- A component puts its loop around its condition and both around its tag. -/
theorem renderComponent_returns (resultType : Block.ResultType) {component : Component}
    (h : PlainElement component.element) {content fallback : String}
    (hContent : WellNested content) (hFallback : WellNested fallback) :
    Returns WellNested (renderComponent resultType component content fallback) := by
  cases hDynamic : isDynamic component.element with
  | false =>
      simp only [renderComponent, hDynamic, Bool.not_false, ↓reduceIte]
      exact Returns.pure hFallback
  | true =>
      simp only [renderComponent, hDynamic, Bool.not_true, Bool.false_eq_true, ↓reduceIte]
      refine (requireTag_returns h).bind fun tag hTag =>
        (renderContent_returns h hContent).bind fun inner hInner =>
        (renderCondition_returns h).bind fun condition hCondition =>
        (renderLoop_returns resultType h).bind fun loop hLoop =>
        (Returns.mapM fun state hState =>
          renderState_returns h (List.mem_filter.1 hState).1).bind fun states hStates =>
        (renderElement_returns h hTag hInner).bind fun body hBody => Returns.pure ?_
      have hBefore : Silent ("\n".intercalate states) :=
        intercalate_induction (.of_isPlain (by decide)) (fun _ _ => Silent.append)
          (.of_isPlain (by decide)) hStates
      have hText : "\n".intercalate states ++ loop.opening ++ condition.opening ++ body ++
          condition.closing ++ loop.closing = "\n".intercalate states ++
            (loop.opening ++ (condition.opening ++ body ++ condition.closing) ++ loop.closing) := by
        simp only [String.append_assoc]
      rw [hText]
      exact (WellNested.of_silent hBefore).append (hLoop _ (hCondition _ hBody))

/-! ## Trees -/

theorem renderTrees_returns {resultType : Block.ResultType} {trees : List Component}
    (h : ∀ tree ∈ trees, Returns WellNested (renderTree resultType tree)) :
    Returns WellNested (renderTrees resultType trees) := by
  induction trees with
  | nil =>
      rw [renderTrees]
      exact Returns.pure (.of_silent (.of_isPlain (by decide)))
  | cons tree trees ih =>
      have hRest := ih fun other hm => h other (List.mem_cons_of_mem _ hm)
      rw [renderTrees]
      exact (h tree List.mem_cons_self).bind fun first hFirst =>
        hRest.bind fun rest hRest => Returns.pure (hFirst.append hRest)

theorem renderTree_returns (resultType : Block.ResultType) (tree : Component) :
    (∀ component ∈ tree.postorder, PlainElement component.element) →
      Returns WellNested (renderTree resultType tree) := by
  induction tree using Component.induction with
  | hNode element children ih =>
      intro h
      have hElement : PlainElement element := h _ (Component.mem_postorder_self _)
      have hChildren := renderTrees_returns fun child hChild => ih child hChild
        fun component hm => h component (Component.postorder_subset hChild hm)
      rw [renderTree]
      refine hChildren.bind fun inner hInner => ?_
      have hContent : WellNested (element.content ++ inner) :=
        (WellNested.of_silent (.of_isPlain hElement.content)).append hInner
      exact renderComponent_returns resultType (h _ (Component.mem_postorder_self _)) hContent
        (wellNested_plainText hElement hContent)

/-- When no text of a tree has a percent sign, every block tag of its markup that starts a block is
closed by the end tag of its own kind, and blocks do not cross. -/
theorem renderTree_balanced {resultType : Block.ResultType} {tree : Component}
    (hTexts : ∀ text ∈ tree.texts, '%' ∉ text.toList) {context next : Context} {text : String}
    (hRun : (renderTree resultType tree).runIn context = (.ok text, next)) :
    Balanced (blockTags text) := by
  have hElements : ∀ component ∈ tree.postorder, PlainElement component.element :=
    fun component hm other hOther => hTexts other (List.mem_flatMap.2 ⟨component, hm, hOther⟩)
  exact (renderTree_returns resultType tree hElements context text next hRun).balanced

/-- A binding to a field in a role. -/
def fieldIn (role : String) : StoredState :=
  ⟨role, none, false, [.property ⟨"t", "t", none, [], .scalar, none⟩]⟩

/-- A loop with an item that is shown unless its value is there. -/
def shelf : Component :=
  .node { id := "a", persistentId := some "p", tagName := some "ul"
          privateStates := [fieldIn "__data"] }
    [.leaf { id := "b", tagName := some "li", operator := some .falsy
             privateStates := [fieldIn "condition"] }]

theorem shelf_balanced : ∃ text next,
    (renderTree (fun _ _ => some ⟨"t", "t", [], .list, none⟩) shelf).runIn
        (Context.start {} 0 []) = (.ok text, next) ∧
      Balanced (blockTags text) ∧
      blockTags text =
        [.opening .loop, .opening .negation, .closing .negation, .closing .loop] := by
  have hOk : (renderTree (fun _ _ => some ⟨"t", "t", [], .list, none⟩) shelf).fault?
      (Context.start {} 0 []) = none := by
    decide +kernel
  have hTags : (((renderTree (fun _ _ => some ⟨"t", "t", [], .list, none⟩) shelf).runIn
      (Context.start {} 0 [])).1.toOption.map blockTags) =
      some [.opening .loop, .opening .negation, .closing .negation, .closing .loop] := by
    decide +kernel
  obtain ⟨text, next, hRun⟩ := Pass.fault?_eq_none hOk
  rw [hRun] at hTags
  exact ⟨text, next, hRun, renderTree_balanced (by decide +kernel) hRun, Option.some.inj hTags⟩

end PagePress.Nesting
