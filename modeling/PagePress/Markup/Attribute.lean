import PagePress.OrderedMap
import PagePress.Page.Component
import PagePress.Text.Escape

/-!
# Attributes

The attributes of an element are its static ones, in which a bound attribute takes the place of a
static one of the same name. For `class` and `style` values add up instead. Attributes that render
as nothing are left out.
-/

namespace PagePress.Markup

/-- Attributes whose values add up. -/
def multiValueNames : List String := ["class", "style"]

/-- Whether the values of an attribute add up. -/
def isMultiValue (name : String) : Bool := multiValueNames.contains name

/-- Labels of bindings that are about the element itself and not about an attribute. -/
def reservedLabels : List String := ["innerHTML", "condition", "condition2", "__data"]

/-- Whether a binding with this label is about an attribute. -/
def isAttributeLabel (label : String) : Bool := !reservedLabels.contains label

/-- An attribute whose value is template source. -/
structure BoundAttribute where
  name : String
  value : String
deriving DecidableEq, Repr

/-- An attribute in a tag; an attribute that is off is nothing. -/
def attributeText (name : String) : AttributeValue → String
  | .flag true => name
  | .flag false => ""
  | .text value => name ++ "=\"" ++ value ++ "\""

/-! ## Merging -/

/-- Two values that add up, with a space between them unless the first is empty. -/
def joinValues (first second : String) : String :=
  if first.isEmpty then second else first ++ " " ++ second

/-- The value of a bound attribute where a value may be there already. -/
def mergedValue (present : Option AttributeValue) (bound : BoundAttribute) : AttributeValue :=
  match present with
  | some (.text existing) =>
    if isMultiValue bound.name then .text (joinValues existing bound.value) else .text bound.value
  | _ => .text bound.value

/-- Attributes with a bound one merged into them. -/
def merge (attributes : OrderedMap AttributeValue) (bound : BoundAttribute) :
    OrderedMap AttributeValue :=
  attributes.insert bound.name (mergedValue (attributes.get? bound.name) bound)

/-- Attributes with all the bound ones merged into them, in order. -/
def mergeAll (attributes : OrderedMap AttributeValue) (bound : List BoundAttribute) :
    OrderedMap AttributeValue :=
  bound.foldl merge attributes

/-- The text of attributes in a tag. -/
def attributesText (attributes : OrderedMap AttributeValue) (bound : List BoundAttribute) :
    String :=
  " ".intercalate
    (((mergeAll attributes bound).entries.map fun entry => attributeText entry.1 entry.2).filter
      fun text => !text.isEmpty)

/-! ## Static attributes -/

/-- A static value as it is written between quotes. -/
def escapeValue : AttributeValue → AttributeValue
  | .text value => .text (Text.escapeAttribute value)
  | .flag value => .flag value

/-- The static attributes of an element. Its classes, when there are any, are the value of
`class`. -/
def staticAttributes (element : Element) : OrderedMap AttributeValue :=
  let attributes := element.attributes.mapValues escapeValue
  let classes := element.classes.filter fun name => !name.isEmpty
  if classes.isEmpty then attributes
  else attributes.insert "class" (.text (Text.escapeAttribute (" ".intercalate classes)))

end PagePress.Markup
