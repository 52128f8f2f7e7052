import Mathlib.Algebra.GroupWithZero.Nat
import PagePress.Proofs.Costs
import PagePress.Proofs.PageLocal
import PagePress.Proofs.Visibility

/-!
# What trees cost

The faults of a component stand in the order in which rendering tests them, and its variables are
counted by its bindings. Rendering a tree meets the faults of its components with something to do,
children before parents, and takes the variables of all components when there is none.

A binding that nothing asks for has no fault: a second expression without a condition or beside an
operator that does not compare, and the attributes of an element whose tag is left out.

## Main results

* `costs_renderComponent` — faults and variables of one component.
* `renderTree_error_iff` — when a tree does not render, and with which error.
* `renderTree_variables` — how many variables a tree takes.
-/

namespace PagePress.Markup

open Pass (Costs)

variable {resultType : Block.ResultType} {component : Component} {element : Element}

/-! ## Bindings -/

/-- The expression of the first visible private state of a reserved label and with the id of a
role. -/
def bound? (element : Element) (role : String) : Option Expression :=
  (element.shown.privateStates.find? fun state =>
    !isAttributeLabel state.labelText && state.id = role).map StoredState.expression

/-- Whether an element has a visible private state of a reserved label and with the id of a role. -/
def hasBinding (element : Element) (role : String) : Bool :=
  element.shown.privateStates.any fun state => !isAttributeLabel state.labelText && state.id = role

/-- The faults of the binding of an element in a role. -/
def bindingFaults (element : Element) (role : String) : List PublishError :=
  match bound? element role with
  | some expression => (grammarFaults expression).map .expression
  | none => []

/-- Whether the condition of an element compares two values. -/
def comparesValues (element : Element) : Bool :=
  hasBinding element "condition" && (element.operator.getD .truthy).isBinary

theorem boundTo?_eq_bound? (element : Element) (role : String) :
    boundTo? element role = bound? element role := rfl

theorem bound?_isSome (element : Element) (role : String) :
    (bound? element role).isSome = hasBinding element role := by
  rw [bound?, Option.isSome_map, List.isSome_find?, hasBinding]

/-- What is bound to an element has tokens. -/
theorem isEmpty_of_bound? {role : String} {expression : Expression}
    (h : bound? element role = some expression) : expression.isEmpty = false := by
  obtain ⟨state, hFind, rfl⟩ := Option.map_eq_some_iff.1 h
  have hVisible := (List.mem_filter.1 (List.mem_of_find?_eq_some hFind)).2
  simp only [Bool.and_eq_true, Bool.not_eq_true'] at hVisible
  exact hVisible.2

/-! ## Faults and variables of a component -/

/-- The fault of an element without a tag name. -/
def tagFaults (element : Element) : List PublishError :=
  if element.tag?.isSome then [] else [.missingTagName element.id]

/-- The faults of the condition of an element. -/
def conditionFaults (element : Element) : List PublishError :=
  bindingFaults element "condition" ++
    if comparesValues element then bindingFaults element "condition2" else []

/-- The faults of the loop of a component. -/
def loopFaults (resultType : Block.ResultType) (component : Component) : List PublishError :=
  match bound? component.element "__data" with
  | some expression =>
    (listFaults resultType component expression ++ persistentIdFaults component.element ++
      grammarFaults expression).map .expression
  | none => []

/-- The faults of a state that an element publishes. -/
def stateFaults (element : Element) (state : StoredState) : List PublishError :=
  (persistentIdFaults element ++ grammarFaults state.expression).map .expression

/-- The faults of the bound attributes of an element, whose tag may be left out. -/
def attributeFaults (element : Element) : List PublishError :=
  if element.unwrap then []
  else (element.shown.privateStates.filter fun state =>
    isAttributeLabel state.labelText).flatMap fun state =>
      (grammarFaults state.expression).map .expression

/-- The faults of a component, in the order in which they are tested. -/
def faults (resultType : Block.ResultType) (component : Component) : List PublishError :=
  tagFaults component.element ++ bindingFaults component.element "innerHTML" ++
    conditionFaults component.element ++ loopFaults resultType component ++
    component.element.shown.publicStates.flatMap (stateFaults component.element) ++
    attributeFaults component.element

/-- The variables of the condition of an element. -/
def conditionVariables (element : Element) : Nat :=
  (hasBinding element "condition").toNat +
    (comparesValues element && hasBinding element "condition2").toNat

/-- The variables of the bound attributes of an element, whose tag may be left out. -/
def attributeVariables (element : Element) : Nat :=
  if element.unwrap then 0
  else (element.shown.privateStates.filter fun state => isAttributeLabel state.labelText).length

/-- The variables that an element takes, none when it has no visible binding and keeps its tag. -/
def variableCount (element : Element) : Nat :=
  if element.hasWork then
    (hasBinding element "innerHTML").toNat + conditionVariables element +
      (hasBinding element "__data").toNat + element.shown.publicStates.length +
      attributeVariables element
  else 0

/-! ## The parts of a component -/

theorem costs_requireTag (element : Element) :
    Costs (tagFaults element) 0 (Pass.ofExcept (requireTag element)) := by
  cases hTag : element.tag? with
  | none =>
      rw [tagFaults, hTag]
      exact Costs.ofExcept_error (by rw [requireTag, hTag])
  | some tag =>
      rw [tagFaults, hTag]
      exact Costs.ofExcept_ok (by rw [requireTag, hTag])

theorem costs_renderContent (element : Element) (content : String) :
    Costs (bindingFaults element "innerHTML") (hasBinding element "innerHTML").toNat
      (renderContent element content) := by
  rw [renderContent, bindingFaults, ← bound?_isSome, boundTo?_eq_bound?]
  cases bound? element "innerHTML" with
  | none => exact Costs.pure content
  | some expression => exact (Block.costs_echo element expression).mapError _

/-- A condition has a second expression exactly when it compares and one is bound. -/
theorem compared?_eq (operator : Operator) (expression : Expression) (element : Element) :
    (Block.Condition.compared? ⟨expression, operator,
        if operator.isBinary then bound? element "condition2" else none⟩).map Prod.snd =
      if operator.isBinary then bound? element "condition2" else none := by
  cases hOperator : operator.comparison? with
  | none => simp [Block.Condition.compared?, Operator.isBinary, hOperator]
  | some comparison =>
      cases hSecond : bound? element "condition2" with
      | none => simp [Block.Condition.compared?, Operator.isBinary, hOperator]
      | some second =>
          have hTokens := isEmpty_of_bound? hSecond
          simp [Block.Condition.compared?, Operator.isBinary, hOperator, Option.filter, hTokens]

theorem costs_renderCondition (element : Element) :
    Costs (conditionFaults element) (conditionVariables element) (renderCondition element) := by
  rw [renderCondition, condition?, conditionFaults, conditionVariables, comparesValues,
    bindingFaults, bindingFaults, ← bound?_isSome, ← bound?_isSome, boundTo?_eq_bound?,
    boundTo?_eq_bound?]
  cases bound? element "condition" with
  | none => exact Costs.pure _
  | some expression =>
      have hCompared := compared?_eq (element.operator.getD .truthy) expression element
      have hCosts := (Block.costs_conditional element ⟨expression, element.operator.getD .truthy,
        if (element.operator.getD .truthy).isBinary then bound? element "condition2"
        else none⟩).mapError PublishError.expression
      rw [← Option.isSome_map (f := Prod.snd), Block.comparedFaults, hCompared,
        List.map_append] at hCosts
      cases hBinary : (element.operator.getD .truthy).isBinary with
      | false =>
          simp only [hBinary] at hCosts ⊢
          exact hCosts
      | true =>
          simp only [hBinary] at hCosts ⊢
          cases hSecond : bound? element "condition2" with
          | none =>
              rw [hSecond] at hCosts
              exact hCosts
          | some second =>
              rw [hSecond] at hCosts
              exact hCosts

theorem costs_renderLoop (resultType : Block.ResultType) (component : Component) :
    Costs (loopFaults resultType component)
      (hasBinding component.element "__data").toNat (renderLoop resultType component) := by
  rw [renderLoop, loopFaults, ← bound?_isSome, boundTo?_eq_bound?, Block.loopState]
  cases hBound : bound? component.element "__data" with
  | none => exact Costs.pure _
  | some expression =>
      have hCosts := (Block.costs_loop resultType component
        (isEmpty_of_bound? hBound)).mapError PublishError.expression
      rw [← List.append_assoc] at hCosts
      exact hCosts

theorem costs_renderState (element : Element) (state : StoredState) :
    Costs (stateFaults element state) 1 (renderState element state) :=
  (Block.costs_assign state.id element state.expression).mapError PublishError.expression

theorem costs_renderAttribute (element : Element) (state : StoredState) :
    Costs ((grammarFaults state.expression).map .expression) 1 (renderAttribute element state) :=
  ((Block.costs_echo element state.expression).mapError PublishError.expression).bind_pure _

theorem costs_renderElement (element : Element) (tag content : String) :
    Costs (attributeFaults element) (attributeVariables element)
      (renderElement element tag content) := by
  unfold renderElement attributeFaults attributeVariables
  cases element.unwrap with
  | true => exact Costs.pure content
  | false =>
      exact (Costs.mapM _ fun state _ => costs_renderAttribute element state).bind_pure _

/-! ## Components -/

/-- The faults of a component that has something to do. -/
def workFaults (resultType : Block.ResultType) (component : Component) : List PublishError :=
  if component.element.hasWork then faults resultType component else []

theorem costs_renderComponent (resultType : Block.ResultType) (component : Component)
    (content fallback : String) :
    Costs (workFaults resultType component) (variableCount component.element)
      (renderComponent resultType component content fallback) := by
  cases hWork : component.element.hasWork with
  | false =>
      simp only [workFaults, variableCount, renderComponent, isDynamic_eq, hWork, Bool.not_false,
        Bool.false_eq_true, ↓reduceIte]
      exact Costs.pure fallback
  | true =>
      simp only [workFaults, variableCount, renderComponent, isDynamic_eq, hWork, Bool.not_true,
        Bool.false_eq_true, ↓reduceIte]
      have hCosts := (costs_requireTag component.element).bind fun tag =>
        (costs_renderContent component.element content).bind fun inner =>
        (costs_renderCondition component.element).bind fun condition =>
        (costs_renderLoop resultType component).bind fun loop =>
        (Costs.mapM component.element.visiblePublic fun state _ =>
          costs_renderState component.element state).bind fun states =>
        (costs_renderElement component.element tag inner).bind_pure fun body =>
          "\n".intercalate states ++ loop.opening ++ condition.opening ++ body ++
            condition.closing ++ loop.closing
      simpa only [faults, Element.publicStates_shown, List.append_assoc, Nat.zero_add,
        Nat.add_assoc] using hCosts

/-! ## Trees -/

/-- The faults of components in order. -/
def faultsOf (resultType : Block.ResultType) (components : List Component) : List PublishError :=
  components.flatMap (workFaults resultType)

/-- The variables of components. -/
def variablesOf (components : List Component) : Nat :=
  (components.map fun component => variableCount component.element).sum

theorem variablesOf_append (first second : List Component) :
    variablesOf (first ++ second) = variablesOf first + variablesOf second := by
  rw [variablesOf, List.map_append, List.sum_append]
  rfl

theorem costs_renderTrees {trees : List Component}
    (h : ∀ tree ∈ trees, Costs (faultsOf resultType tree.postorder) (variablesOf tree.postorder)
      (renderTree resultType tree)) :
    Costs (faultsOf resultType (Component.postorderAll trees))
      (variablesOf (Component.postorderAll trees)) (renderTrees resultType trees) := by
  induction trees with
  | nil =>
      rw [renderTrees]
      exact Costs.pure ""
  | cons tree trees ih =>
      have hRest := ih fun other hm => h other (List.mem_cons_of_mem _ hm)
      rw [renderTrees, Component.postorderAll, variablesOf_append, faultsOf, List.flatMap_append]
      exact (h tree List.mem_cons_self).bind fun first => hRest.bind_pure (first ++ ·)

/-- Rendering a tree costs the faults and the variables of its components. -/
theorem costs_renderTree (resultType : Block.ResultType) (tree : Component) :
    Costs (faultsOf resultType tree.postorder) (variablesOf tree.postorder)
      (renderTree resultType tree) := by
  induction tree using Component.induction with
  | hNode element children ih =>
      have hCosts := (costs_renderTrees ih).bind fun inner =>
        costs_renderComponent resultType (.node element children) (element.content ++ inner)
          (plainText element (element.content ++ inner))
      have hFaults : faultsOf resultType [.node element children] =
          workFaults resultType (.node element children) := List.append_nil _
      have hVariables : variablesOf [.node element children] = variableCount element :=
        Nat.add_zero _
      rw [renderTree, Component.postorder, variablesOf_append, hVariables, faultsOf,
        List.flatMap_append, ← faultsOf, ← faultsOf, hFaults]
      exact hCosts

/-! ## Results -/

theorem faultsOf_eq (resultType : Block.ResultType) (components : List Component) :
    faultsOf resultType components =
      (components.filter fun component => component.element.hasWork).flatMap
        (faults resultType) := by
  induction components with
  | nil => rfl
  | cons component rest ih =>
      rw [faultsOf, List.flatMap_cons, ← faultsOf, ih, workFaults]
      cases hWork : component.element.hasWork with
      | false => simp [hWork]
      | true => simp [hWork]

/-- Rendering a tree fails exactly when a component of it with something to do has a fault, and the
error is the first fault, children before parents and siblings in order. Every such error is local
to its page. -/
theorem renderTree_error_iff (resultType : Block.ResultType) (tree : Component)
    (context : Context) :
    (∀ error, ((renderTree resultType tree).runIn context).1 = .error error ↔
        ((tree.postorder.filter fun component => component.element.hasWork).flatMap
          (faults resultType)).head? = some error) ∧
      ((∃ error, ((renderTree resultType tree).runIn context).1 = .error error) ↔
        ∃ component ∈ tree.postorder, component.element.hasWork = true ∧
          faults resultType component ≠ []) ∧
      ∀ error, ((renderTree resultType tree).runIn context).1 = .error error →
        error.isPageLocal = true := by
  have hFirst := (costs_renderTree resultType tree).eq_error_iff context
  rw [faultsOf_eq] at hFirst
  refine ⟨hFirst, ?_, ?_⟩
  · simp only [hFirst]
    rw [← Option.isSome_iff_exists, List.isSome_head?, ne_eq, List.flatMap_eq_nil_iff]
    simp
  · intro error hError
    exact renderTree_raises resultType tree context error _ (Prod.ext hError rfl)

/-- A second expression that stands alone is not compiled, even when the operator compares. -/
def loneSecond : Element where
  id := "c1"
  tagName := some "div"
  operator := some .equal
  privateStates := [⟨"condition2", none, false, [.filter ⟨"first", "first", .empty⟩]⟩]

theorem loneSecond_renders :
    ¬ ∀ (resultType : Block.ResultType) (tree : Component) (context : Context),
      (∃ component ∈ tree.postorder, component.element.hasWork = true ∧
        (component.element.operator.getD .truthy).isBinary = true ∧
        bindingFaults component.element "condition2" ≠ []) →
      ∃ error, ((renderTree resultType tree).runIn context).1 = .error error := by
  intro h
  have hStated := h (fun _ _ => none) (.leaf loneSecond) (Context.start {} 0 [])
    ⟨.leaf loneSecond, Component.mem_postorder_self _, by decide, by decide, by decide⟩
  obtain ⟨error, hError⟩ := hStated
  have hOk : (renderTree (fun _ _ => none) (.leaf loneSecond)).fault?
      (Context.start {} 0 []) = none := by
    decide +kernel
  obtain ⟨text, next, hRun⟩ := Pass.fault?_eq_none hOk
  rw [hRun] at hError
  cases hError

/-- Rendering a tree takes the variables of all its components, those among them whose markup is
dropped. -/
theorem renderTree_variables {resultType : Block.ResultType} {tree : Component}
    {context next : Context} {text : String}
    (hRun : (renderTree resultType tree).runIn context = (.ok text, next)) :
    next.nextVariable = context.nextVariable +
      (tree.postorder.map fun component => variableCount component.element).sum := by
  obtain ⟨-, rfl⟩ := (costs_renderTree resultType tree).of_ok hRun
  rfl

/-- A binding to a field, in a role or of an attribute. -/
def bindingOf (id : String) : StoredState :=
  ⟨id, none, false, [.property ⟨"title", "title", some "cms", [], .scalar, none⟩]⟩

/-- A loop over a comparison, around an image whose children are not shown and around an element
without its tag whose children give way to a bound value. Some bindings are hidden or have no
tokens. -/
def gallery : Component :=
  .node { id := "list", persistentId := some "p1", tagName := some "ul", operator := some .equal
          privateStates := ["__data", "condition", "condition2", "title"].map bindingOf
          publicStates := [bindingOf "item", ⟨"empty", none, false, []⟩] }
    [.node { id := "image", tagName := some "img"
             privateStates := [bindingOf "src", { bindingOf "alt" with hidden := true }] }
      [.leaf { id := "lost", tagName := some "b", privateStates := [bindingOf "innerHTML"] }],
    .node { id := "text", tagName := some "span", unwrap := true
            privateStates := [bindingOf "href", bindingOf "innerHTML"] }
      [.leaf { id := "replaced", tagName := some "i", privateStates := [bindingOf "innerHTML"] }]]

theorem gallery_variables : ∃ text next,
    (renderTree (fun _ _ => some ⟨"title", "title", [], .list, none⟩) gallery).runIn
        { Context.start {} 0 [] with nextVariable := 3 } = (.ok text, next) ∧
      next.nextVariable = 12 := by
  have hOk : (renderTree (fun _ _ => some ⟨"title", "title", [], .list, none⟩) gallery).fault?
      { Context.start {} 0 [] with nextVariable := 3 } = none := by
    decide +kernel
  obtain ⟨text, next, hRun⟩ := Pass.fault?_eq_none hOk
  exact ⟨text, next, hRun, (renderTree_variables hRun).trans (by decide +kernel)⟩

end PagePress.Markup
