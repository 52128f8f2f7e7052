import PagePress.Expression.Token

/-!
# Components

A page is a tree of components. Each has an element of markup with its static parts, and states:
bindings of expressions. A private state serves the element itself, a public one is published for
others under the persistent id of the element.
-/

namespace PagePress

/-! ## Operators of conditions -/

/-- What a condition asks of its value. -/
inductive Operator where
  | truthy
  | falsy
  | emptyArray
  | notEmptyArray
  | equal
  | notEqual
  | greaterThan
  | lessThan
  | greaterThanOrEqual
  | lessThanOrEqual
deriving DecidableEq, Repr, Inhabited

/-- The name of an operator. -/
def Operator.name : Operator → String
  | .truthy => "truthy"
  | .falsy => "falsy"
  | .emptyArray => "empty array"
  | .notEmptyArray => "not empty array"
  | .equal => "=="
  | .notEqual => "!="
  | .greaterThan => ">"
  | .lessThan => "<"
  | .greaterThanOrEqual => ">="
  | .lessThanOrEqual => "<="

/-- All operators. -/
def Operator.all : List Operator :=
  [.truthy, .falsy, .emptyArray, .notEmptyArray, .equal, .notEqual, .greaterThan, .lessThan,
    .greaterThanOrEqual, .lessThanOrEqual]

/-- The operator of a name. -/
def Operator.named? (name : String) : Option Operator :=
  Operator.all.find? fun operator => operator.name = name

/-- The comparison of an operator that compares with a second value. -/
def Operator.comparison? : Operator → Option String
  | .truthy | .falsy | .emptyArray | .notEmptyArray => none
  | operator => some operator.name

/-- Whether an operator compares with a second value. -/
def Operator.isBinary (operator : Operator) : Bool := operator.comparison?.isSome

/-! ## Elements -/

/-- The static value of an attribute. -/
inductive AttributeValue where
  | flag (value : Bool)
  | text (value : String)
deriving DecidableEq, Repr

/-- A binding of an expression. -/
structure StoredState where
  id : String
  label : Option String
  hidden : Bool
  expression : Expression

/-- The label of a binding, which is its id when it has no other; for a bound attribute it is the
name of the attribute. -/
def StoredState.labelText (s : StoredState) : String :=
  match s.label with
  | some label => if label.isEmpty then s.id else label
  | none => s.id

/-- Whether a binding takes part in rendering. -/
def StoredState.isVisible (s : StoredState) : Bool :=
  !s.hidden && !s.expression.isEmpty

/-- A component without its children. -/
structure Element where
  /-- Names the variables of the element; unique in its document. -/
  id : String := ""
  /-- Names the published states of the element; survives edits. -/
  persistentId : Option String := none
  tagName : Option String := none
  attributes : OrderedMap AttributeValue := .empty
  classes : List String := []
  /-- The text before the children. -/
  content : String := ""
  privateStates : List StoredState := []
  publicStates : List StoredState := []
  /-- Whether the tag is left out and the content kept. -/
  unwrap : Bool := false
  operator : Option Operator := none

instance : Inhabited Element := ⟨{}⟩

/-- The first private state with an id. -/
def Element.privateState? (e : Element) (id : String) : Option StoredState :=
  e.privateStates.find? (·.id = id)

/-- The first public state with an id. -/
def Element.publicState? (e : Element) (id : String) : Option StoredState :=
  e.publicStates.find? (·.id = id)

/-- The private states that take part in rendering. -/
def Element.visiblePrivate (e : Element) : List StoredState :=
  e.privateStates.filter StoredState.isVisible

/-- The public states that take part in rendering. -/
def Element.visiblePublic (e : Element) : List StoredState :=
  e.publicStates.filter StoredState.isVisible

/-- The persistent id when there is one with text. -/
def Element.persistentId? (e : Element) : Option String :=
  e.persistentId.filter fun id => !id.isEmpty

/-- The tag name when there is one with text, in lower case as far as it is ASCII. -/
def Element.tag? (e : Element) : Option String :=
  (e.tagName.filter fun tag => !tag.isEmpty).map fun tag => tag.map Char.toLower

/-! ## Trees -/

/-- An element with its children. -/
inductive Component where
  | node (element : Element) (children : List Component)

namespace Component

/-- The element at the root. -/
def element : Component → Element
  | node element _ => element

/-- The components right below the root. -/
def children : Component → List Component
  | node _ children => children

/-- A component without children. -/
def leaf (element : Element) : Component := node element []

instance : Inhabited Component := ⟨leaf {}⟩

/-- The same tree with another element at the root. -/
def withElement (c : Component) (element : Element) : Component := node element c.children

mutual

/-- The first component with a persistent id, parents first and siblings in order. -/
def find? (persistentId : String) : Component → Option Component
  | node element children =>
    if element.persistentId = some persistentId then some (node element children)
    else findIn? persistentId children

/-- The first component with a persistent id among trees. -/
def findIn? (persistentId : String) : List Component → Option Component
  | [] => none
  | tree :: trees => (find? persistentId tree).or (findIn? persistentId trees)

end

end Component

end PagePress
