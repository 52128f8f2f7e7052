import PagePress.Json.Value
import PagePress.OrderedMap

/-!
# Expressions

An expression binds data to a page: a path of properties, perhaps starting at a state that another
element publishes, followed by filters. It is kept as the list of tokens that an editor stored,
well formed or not; `PagePress.Expression.Grammar` says which lists are.
-/

namespace PagePress

/-- The shape of a value. -/
inductive Kind where
  | scalar
  | object
  | list
deriving DecidableEq, Repr, Inhabited

/-- The name of a shape. -/
def Kind.name : Kind → String
  | .scalar => "scalar"
  | .object => "object"
  | .list => "list"

/-- The shape of a name. -/
def Kind.named? : String → Option Kind
  | "scalar" => some .scalar
  | "object" => some .object
  | "list" => some .list
  | _ => none

/-- A field of a data source, or of the value reached so far. -/
structure Property where
  fieldId : String
  label : String
  dataSourceId : Option String
  typeIds : List String
  kind : Kind
  options : Option (OrderedMap Json.Value)

/-- The value that an element publishes under a state id. -/
structure StateRef where
  componentId : String
  storedStateId : String
  exposed : Bool
  forceKind : Option Kind
  label : Option String

/-- A named change of the value reached so far. -/
structure Filter where
  id : String
  label : String
  options : OrderedMap Json.Value

/-- One step of an expression. -/
inductive Token where
  | property (p : Property)
  | state (s : StateRef)
  | filter (f : Filter)

/-- The steps of an expression, in order. -/
abbrev Expression := List Token

/-- What is known about a field, or about the value of an expression. -/
structure Field where
  id : String
  label : String
  typeIds : List String
  kind : Kind
  dataSourceId : Option String
deriving DecidableEq, Repr

/-! ## Fixed values -/

/-- The field id of a property that stands for a fixed value and not for data. -/
def fixedId : String := "fixed"

/-- Whether a property stands for a fixed value. -/
def Property.isFixed (p : Property) : Bool := p.fieldId = fixedId

/-- The text of the value that a property holds in its options, or nothing. -/
def Property.fixedText (p : Property) : String :=
  match p.options.bind fun options => options.get? "value" with
  | some value => value.text
  | none => ""

/-! ## Tokens -/

/-- The name that messages give a token. A property or filter with an empty label goes by its id,
a state only when it has no label at all. -/
def Token.label : Token → String
  | .property p => if p.label.isEmpty then p.fieldId else p.label
  | .state s => s.label.getD s.storedStateId
  | .filter f => if f.label.isEmpty then f.id else f.label

/-- Whether a token is a filter. -/
def Token.isFilter : Token → Bool
  | .filter _ => true
  | _ => false

/-- The labels of tokens, as messages show them. -/
def Token.labels (tokens : List Token) : String :=
  " -> ".intercalate (tokens.map Token.label)

end PagePress
