import PagePress.Expression.Error
import PagePress.Text.Escape

/-!
# Statements

An expression compiles to one Liquid statement that assigns its value to a variable: the dotted
path of its properties, after the data source it is read from, and its filters behind bars.

Liquid strings have no escapes, so a fixed value takes the quote that it does not hold itself. With
both quotes in the value its double quotes become entities.

## Main results

* `filterChain_nil` — an expression without filters ends with its path.
-/

namespace PagePress

/-- The variable that holds a published state. -/
def stateVariable (persistentId stateId : String) : String :=
  "state_" ++ persistentId ++ "_" ++ stateId

namespace Expression

/-! ## Paths -/

/-- A text as a Liquid string. -/
def quote (text : String) : String :=
  match text.toList.contains '"', text.toList.contains '\'' with
  | true, false => "'" ++ text ++ "'"
  | true, true => "\"" ++ Text.escapeDoubleQuotes text ++ "\""
  | false, _ => "\"" ++ text ++ "\""

/-- The step of a path for a token of the path `tokens`; a state may be the first step only. -/
def pathStep (tokens : Expression) (first : Bool) : Token → Except ExpressionError String
  | .state s =>
    if first then .ok (stateVariable s.componentId s.storedStateId)
    else .error (ExpressionError.misplacedState tokens)
  | .property p => .ok (if p.isFixed then quote p.fixedText else p.fieldId)
  | .filter f => .error (ExpressionError.filterInPath f)

/-- The steps of a path. -/
def pathSteps : Expression → Except ExpressionError (List String)
  | [] => .ok []
  | token :: rest => do
    let first ← pathStep (token :: rest) true token
    let others ← rest.mapM (pathStep (token :: rest) false)
    return first :: others

/-- The dotted path of properties that perhaps start at a state. -/
def path (tokens : Expression) : Except ExpressionError String :=
  (pathSteps tokens).map fun steps => ".".intercalate steps

/-! ## Filters -/

/-- A filter with the values of its options. -/
def filterCall (f : Filter) : String :=
  if f.options.isEmpty then f.id
  else f.id ++ ": " ++ ", ".intercalate (f.options.values.map Json.Value.text)

/-- Filters behind bars. -/
def filterChain : List Filter → String
  | [] => ""
  | filters => " | " ++ " | ".intercalate (filters.map filterCall)

theorem filterChain_nil : filterChain [] = "" := rfl

/-- The filter of a token of the expression `tokens`. -/
def asFilter (tokens : Expression) : Token → Except ExpressionError Filter
  | .filter f => .ok f
  | _ => .error (ExpressionError.propertyAfterFilter tokens)

/-! ## Statements -/

/-- The place that a path is read from. -/
def receiverPrefix (receiver : String) : String :=
  if receiver.isEmpty then "" else receiver ++ "."

/-- The statement that assigns the value of an expression, read from a receiver, to a variable. -/
def statement (tokens : Expression) (variableName receiver : String) :
    Except ExpressionError String := do
  match tokens with
  | [] => throw .empty
  | .filter _ :: _ => throw (ExpressionError.leadingFilter tokens)
  | _ =>
    let isPath := fun token : Token => !token.isFilter
    let filters ← (tokens.dropWhile isPath).mapM (asFilter tokens)
    let steps ← path (tokens.takeWhile isPath)
    return "assign " ++ variableName ++ " = " ++ receiverPrefix receiver ++ steps ++
      filterChain filters

end Expression

end PagePress
