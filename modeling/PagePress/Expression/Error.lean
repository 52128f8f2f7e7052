import PagePress.Expression.Token
import PagePress.Text.Lines

/-!
# Errors of expressions

An error names its kind, says what is wrong, and may show the labels of the offending tokens and
give a hint. It is rendered for a terminal with a palette of control sequences; the plain palette
has none, so plain and coloured text differ in nothing else.
-/

namespace PagePress

/-- What can be wrong with an expression where it is used. -/
inductive ExpressionError.Kind where
  | emptyExpression
  | leadingFilter
  | misplacedState
  | propertyAfterFilter
  | notAList
  | invalidExpression
  | missingPersistentId
deriving DecidableEq, Repr

/-- The heading of a kind of error. -/
def ExpressionError.Kind.title : ExpressionError.Kind → String
  | .emptyExpression => "Empty expression"
  | .leadingFilter => "Leading filter"
  | .misplacedState => "Misplaced state"
  | .propertyAfterFilter => "Property after filter"
  | .notAList => "Not a list"
  | .invalidExpression => "Invalid expression"
  | .missingPersistentId => "Missing persistent id"

/-- An error of an expression. -/
structure ExpressionError where
  kind : ExpressionError.Kind
  message : String
  /-- The labels of the offending tokens. -/
  expression : Option String
  help : Option String
deriving DecidableEq, Repr

namespace ExpressionError

/-! ## The errors -/

/-- There is no token. -/
def empty : ExpressionError :=
  ⟨.emptyExpression, "Expression cannot be empty", none, none⟩

/-- The first token is a filter. -/
def leadingFilter (tokens : Expression) : ExpressionError :=
  ⟨.leadingFilter, "Expression cannot start with a filter", some (Token.labels tokens), none⟩

/-- A state comes after the first token. -/
def misplacedState (tokens : Expression) : ExpressionError :=
  ⟨.misplacedState, "State can only be the first token in an expression",
    some (Token.labels tokens), none⟩

/-- A filter is not the end of the expression. -/
def propertyAfterFilter (tokens : Expression) : ExpressionError :=
  ⟨.propertyAfterFilter, "A filter cannot be followed by a property or state",
    some (Token.labels tokens), none⟩

/-- A filter stands in a path. -/
def filterInPath (f : Filter) : ExpressionError :=
  ⟨.invalidExpression,
    "Only state or property can be used in an expression, got filter " ++ f.id, none, none⟩

/-- An expression to loop over has no known result. -/
def unknownResult (tokens : Expression) : ExpressionError :=
  ⟨.invalidExpression, "Expression " ++ Token.labels tokens ++ " is invalid", none, none⟩

/-- An expression to loop over is no list. -/
def notAList (tokens : Expression) (kind : PagePress.Kind) : ExpressionError :=
  ⟨.notAList,
    "Provided property needs to be a list in order to loop, not a " ++ kind.name,
    some (Token.labels tokens), none⟩

/-- An element that publishes a state has no persistent id. -/
def missingPersistentId : ExpressionError :=
  ⟨.missingPersistentId, "This component has no persistent ID", none,
    some "Persistent IDs are required to get component states"⟩

/-- The error with a hint. -/
def withHelp (error : ExpressionError) (help : String) : ExpressionError :=
  { error with help := some help }

end ExpressionError

/-! ## Rendering -/

/-- The control sequences around the parts of a rendered error. -/
structure Palette where
  alarm : String
  dim : String
  accent : String
  bold : String
  reset : String

/-- No control sequences. -/
def Palette.plain : Palette := ⟨"", "", "", "", ""⟩

/-- The control sequences of a terminal. -/
def Palette.terminal : Palette :=
  ⟨"\x1b[1;31m", "\x1b[2m", "\x1b[1;38;5;73m", "\x1b[1m", "\x1b[0m"⟩

/-- The lines of a hint: the first one is marked and the others are indented. -/
def Palette.helpLines (palette : Palette) : List String → List String
  | [] => []
  | first :: rest =>
    (" " ++ palette.accent ++ "help:" ++ palette.reset ++ " " ++ first ++ "\n") ::
      rest.map fun line => "       " ++ line ++ "\n"

/-- The text of an error that happened in a context, which may be empty. -/
def ExpressionError.render (error : ExpressionError) (palette : Palette) (context : String) :
    String :=
  let place :=
    if context.isEmpty then ""
    else " " ++ palette.dim ++ "in:" ++ palette.reset ++ " " ++ context ++ "\n"
  let heading :=
    palette.alarm ++ "error:" ++ palette.reset ++ " " ++ error.kind.title ++ ": " ++
      error.message ++ "\n"
  let bar := palette.dim ++ "   |" ++ palette.reset
  let shown := match error.expression with
    | some expression => bar ++ "\n" ++ bar ++ " " ++ expression ++ "\n"
    | none => ""
  let hint := match error.help with
    | some help => "\n" ++ String.join (palette.helpLines (Text.lines help))
    | none => ""
  "\n" ++ place ++ heading ++ shown ++ hint ++ "\n"

end PagePress
