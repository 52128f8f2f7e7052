import PagePress.Block
import PagePress.Error
import PagePress.Markup.Tag

/-!
# Rendering components

A component with visible bindings renders to markup with Liquid blocks: the states that it
publishes, then its loop, then its condition, then its tag with bound attributes around its content
or around the value that is bound to it, and the ends of condition and loop. Children come first,
because their markup is the content of their parent.
-/

namespace PagePress.Markup

/-- The expression that is bound to an element in a role: that of the first visible private state
whose label is reserved and whose id is the role. -/
def boundTo? (element : Element) (role : String) : Option Expression :=
  (element.visiblePrivate.find? fun state =>
    !isAttributeLabel state.labelText && state.id = role).map StoredState.expression

/-- Whether an element has anything for a template to do. -/
def isDynamic (element : Element) : Bool :=
  !element.visiblePrivate.isEmpty || !element.visiblePublic.isEmpty || element.unwrap

/-- A step on expressions as a step of rendering. -/
def onExpression {α : Type} (step : Pass ExpressionError α) : Pass PublishError α :=
  step.mapError .expression

/-! ## The parts of a component -/

/-- The tag of an element with bindings. -/
def requireTag (element : Element) : Except PublishError String :=
  match element.tag? with
  | some tag => .ok tag
  | none => .error (.missingTagName element.id)

/-- The content of an element: the value bound to it, or what is given. -/
def renderContent (element : Element) (content : String) : Pass PublishError String :=
  match boundTo? element "innerHTML" with
  | some expression => onExpression (Block.echo element expression)
  | none => pure content

/-- The condition of an element. -/
def condition? (element : Element) : Option Block.Condition :=
  (boundTo? element "condition").map fun expression =>
    let operator := element.operator.getD .truthy
    { expression := expression
      operator := operator
      second := if operator.isBinary then boundTo? element "condition2" else none }

/-- The block of the condition of an element. -/
def renderCondition (element : Element) : Pass PublishError Block.Wrapper :=
  match condition? element with
  | some condition => onExpression (Block.conditional element condition)
  | none => pure Block.Wrapper.none

/-- The block of the loop of a component. -/
def renderLoop (resultType : Block.ResultType) (component : Component) :
    Pass PublishError Block.Wrapper :=
  match boundTo? component.element Block.loopState with
  | some expression => onExpression (Block.loop resultType component expression)
  | none => pure Block.Wrapper.none

/-- The block that publishes a state. -/
def renderState (element : Element) (state : StoredState) : Pass PublishError String :=
  onExpression (Block.assign state.id element state.expression)

/-- The attribute of a binding. -/
def renderAttribute (element : Element) (state : StoredState) : Pass PublishError BoundAttribute :=
  return ⟨state.labelText, ← onExpression (Block.echo element state.expression)⟩

/-- The bindings of an element that are about attributes. -/
def attributeStates (element : Element) : List StoredState :=
  element.visiblePrivate.filter fun state => isAttributeLabel state.labelText

/-! ## Components -/

/-- The element of a component around its content, without the blocks before and after it. -/
def renderElement (element : Element) (tag content : String) : Pass PublishError String := do
  if element.unwrap then
    return content
  let bound ← (attributeStates element).mapM (renderAttribute element)
  return tagged tag (attributesText (staticAttributes element) bound) content

/-- The markup of a component around content that is rendered already. A component without
anything to do is the fallback. -/
def renderComponent (resultType : Block.ResultType) (component : Component)
    (content fallback : String) : Pass PublishError String := do
  let element := component.element
  if !isDynamic element then
    return fallback
  let tag ← Pass.ofExcept (requireTag element)
  let inner ← renderContent element content
  let condition ← renderCondition element
  let loop ← renderLoop resultType component
  let states ← element.visiblePublic.mapM (renderState element)
  let body ← renderElement element tag inner
  return "\n".intercalate states ++ loop.opening ++ condition.opening ++ body ++
    condition.closing ++ loop.closing

mutual

/-- The markup of a tree. -/
def renderTree (resultType : Block.ResultType) : Component → Pass PublishError String
  | .node element children => do
    let inner ← renderTrees resultType children
    let content := element.content ++ inner
    renderComponent resultType (.node element children) content (plainText element content)

/-- The markup of trees, one after the other. -/
def renderTrees (resultType : Block.ResultType) : List Component → Pass PublishError String
  | [] => pure ""
  | tree :: trees => do
    let first ← renderTree resultType tree
    let rest ← renderTrees resultType trees
    return first ++ rest

end

end PagePress.Markup
