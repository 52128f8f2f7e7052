import PagePress.Expression.Grammar
import PagePress.Expression.Statement
import PagePress.LineBuffer
import PagePress.Page.Component
import PagePress.Pass

/-!
# Liquid blocks

An expression is compiled for an element by a statement that assigns it to a fresh variable. The
blocks here wrap such statements: they print the value, publish it as a state, loop over it or test
it. A block that has a start and an end is given as both, for what stands between them.
-/

namespace PagePress

/-- A statement and the variable that it assigns. -/
structure Statement where
  variableName : String
  source : String
deriving DecidableEq, Repr

/-! ## Statements of expressions -/

/-- The data source that an expression is read from, unless it is a global one. An expression that
starts at a state or a fixed value has none. -/
def Expression.source? (globalSources : List String) : Expression → Option String
  | .property p :: _ =>
    if p.isFixed then none else p.dataSourceId.filter fun id => !globalSources.contains id
  | _ => none

/-- The text before the path of an expression, empty without a data source. -/
def Expression.receiver (globalSources : List String) (expression : Expression) : String :=
  (expression.source? globalSources).getD ""

/-- The statement that assigns an expression to a fresh variable of an element. -/
def assignment (element : Element) (expression : Expression) : Pass ExpressionError Statement := do
  Pass.ofExcept expression.check
  let context ← get
  let receiver := expression.receiver context.globalSources
  let variableName ← freshVariable element.id
  let source ← Pass.ofExcept (expression.statement variableName receiver)
  return ⟨variableName, source⟩

namespace Block

/-! ## Blocks around what stands between them -/

/-- The start and the end of a block. -/
structure Wrapper where
  opening : String
  closing : String
deriving DecidableEq, Repr

/-- A wrapper that adds nothing. -/
def Wrapper.none : Wrapper := ⟨"", ""⟩

/-- A tag with statements, one on each line. -/
def liquidTag (statements : List String) : String :=
  (((LineBuffer.new.addLine "\x7b% liquid").indented (·.addLines statements)).push "%\x7d").text

/-- A tag. -/
def tag (content : String) : String :=
  "\x7b% " ++ content ++ " %\x7d"

/-! ## Values -/

/-- The block that prints the value of an expression. -/
def echo (element : Element) (expression : Expression) : Pass ExpressionError String := do
  let statement ← assignment element expression
  return liquidTag [statement.source, "echo " ++ statement.variableName]

/-- The block that prints the value of an expression, in one line. -/
def echoInline (element : Element) (expression : Expression) : Pass ExpressionError String := do
  let statement ← assignment element expression
  return tag statement.source ++ "\x7b\x7b " ++ statement.variableName ++ " \x7d\x7d"

/-- The persistent id of an element that publishes states. -/
def requirePersistentId (element : Element) : Except ExpressionError String :=
  match element.persistentId? with
  | some id => .ok id
  | none => .error .missingPersistentId

/-- The block that publishes the value of an expression as a state of an element. -/
def assign (stateId : String) (element : Element) (expression : Expression) :
    Pass ExpressionError String := do
  let persistentId ← Pass.ofExcept (requirePersistentId element)
  let statement ← assignment element expression
  return liquidTag
    [statement.source,
      "assign " ++ stateVariable persistentId stateId ++ " = " ++ statement.variableName]

/-! ## Loops -/

/-- The state that holds the current item of a loop. -/
def loopState : String := "__data"

/-- What is known about the value of an expression that stands in a component. -/
abbrev ResultType := Expression → Component → Option Field

/-- Accepts an expression whose value is a list. -/
def requireList (resultType : ResultType) (component : Component) (expression : Expression) :
    Except ExpressionError Unit :=
  if expression.isEmpty then .error .empty
  else match resultType expression component with
    | none => .error (ExpressionError.unknownResult expression)
    | some field =>
      if field.kind = .list then .ok ()
      else .error (ExpressionError.notAList expression field.kind)

/-- The block that loops over the items of an expression; the item is a state of the element. -/
def loop (resultType : ResultType) (component : Component) (expression : Expression) :
    Pass ExpressionError Wrapper := do
  Pass.ofExcept (requireList resultType component expression)
  let persistentId ← Pass.ofExcept (requirePersistentId component.element)
  let statement ← assignment component.element expression
  return {
    opening := liquidTag [statement.source] ++ "\n" ++
      tag ("for " ++ stateVariable persistentId loopState ++ " in " ++ statement.variableName)
    closing := tag "endfor" }

/-! ## Conditions -/

/-- A test of an expression, with a second one for an operator that compares. -/
structure Condition where
  expression : Expression
  operator : Operator
  second : Option Expression

/-- The second expression of a condition, when its operator compares and it has one. -/
def Condition.compared? (condition : Condition) : Option (String × Expression) := do
  let comparison ← condition.operator.comparison?
  let second ← condition.second.filter fun expression => !expression.isEmpty
  return (comparison, second)

/-- The tags that test one variable. -/
def unaryTest (operator : Operator) (name : String) : Wrapper :=
  match operator with
  | .falsy => ⟨tag ("unless " ++ name), tag "endunless"⟩
  | .emptyArray => ⟨tag ("if " ++ name ++ ".size == 0"), tag "endif"⟩
  | .notEmptyArray => ⟨tag ("if " ++ name ++ ".size > 0"), tag "endif"⟩
  | _ => ⟨tag ("if " ++ name), tag "endif"⟩

/-- The tags that compare two variables. -/
def binaryTest (left comparison right : String) : Wrapper :=
  ⟨tag ("if " ++ left ++ " " ++ comparison ++ " " ++ right), tag "endif"⟩

/-- The test after the statements that it needs. -/
def Wrapper.after (test : Wrapper) (statements : List String) : Wrapper :=
  { test with opening := liquidTag statements ++ "\n" ++ test.opening }

/-- The block of a condition. An operator that compares but has no second expression tests the
first one alone. -/
def conditional (element : Element) (condition : Condition) : Pass ExpressionError Wrapper := do
  let left ← assignment element condition.expression
  match condition.compared? with
  | some (comparison, second) =>
    let right ← assignment element second
    return (binaryTest left.variableName comparison right.variableName).after
      [left.source, right.source]
  | none => return (unaryTest condition.operator left.variableName).after [left.source]

end Block

end PagePress
