import PagePress.Expression.Stored
import PagePress.Page.Component

/-!
# Stored components

How states and components are written as JSON. A component is a record, every field of which may
be missing; its children are read along with it, so reading follows the JSON tree.
-/

namespace PagePress

open Json

/-- An operator as JSON. -/
def Operator.toJson (operator : Operator) : Json := .string operator.name

/-- An operator by its name. -/
def Operator.ofJson : Json → Except Json.Error Operator := asChoice Operator.named?

/-- A static attribute value as JSON. -/
def AttributeValue.toJson : AttributeValue → Json
  | .flag value => .bool value
  | .text value => .string value

/-- A stored attribute value. -/
def AttributeValue.ofJson : Json → Except Json.Error AttributeValue
  | .bool value => .ok (.flag value)
  | .string value => .ok (.text value)
  | json => json.mismatch "an attribute value was expected"

/-! ## States -/

/-- The fields of a `StoredState`. -/
def StoredState.fieldNames : List String := ["id", "label", "hidden", "expression"]

/-- A state as JSON. -/
def StoredState.toJson (s : StoredState) : Json :=
  ofFields
    [("id", some (.string s.id)),
     ("label", some (ofOption .string s.label)),
     ("hidden", some (.bool s.hidden)),
     ("expression", some (Expression.toJson s.expression))]

/-- A stored state. -/
def StoredState.ofJson (json : Json) : Except Json.Error StoredState := do
  let record ← asRecord StoredState.fieldNames json
  return {
    id := ← record.optional "id" "" asString
    label := ← record.optional "label" none (asOption asString)
    hidden := ← record.optional "hidden" false asBool
    expression := ← record.optional "expression" [] Expression.ofJson }

/-! ## Components -/

/-- The fields of a component. -/
def Component.fieldNames : List String :=
  ["id", "persistentId", "tagName", "attributes", "classes", "content", "components",
    "privateStates", "publicStates", "unwrap", "conditionOperator"]

/-- The element of a component's record. -/
def Element.ofRecord (record : Record) : Except Json.Error Element := do
  return {
    id := ← record.optional "id" "" asString
    persistentId := ← record.optional "persistentId" none (asOption asString)
    tagName := ← record.optional "tagName" none (asOption asString)
    attributes := ← record.optional "attributes" .empty (asMap AttributeValue.ofJson)
    classes := ← record.optional "classes" [] asStrings
    content := ← record.optional "content" "" asString
    privateStates := ← record.optional "privateStates" [] (asList StoredState.ofJson)
    publicStates := ← record.optional "publicStates" [] (asList StoredState.ofJson)
    unwrap := ← record.optional "unwrap" false asBool
    operator := ← record.optional "conditionOperator" none (asOption Operator.ofJson) }

mutual

/-- A stored component. -/
def Component.ofJson : Json → Except Json.Error Component
  | .object members => do
    let record ← knownMembers Component.fieldNames members
    let element ← Element.ofRecord record
    return .node element (← Component.childrenByName members)
  | .array items => do
    let record ← asRecord Component.fieldNames (.array items)
    let element ← Element.ofRecord record
    return .node element (← Component.childrenByPlace Component.fieldNames items)
  | json => json.mismatch "a component was expected"

/-- The children of a component among its members. -/
def Component.childrenByName : List (String × Json) → Except Json.Error (List Component)
  | [] => .ok []
  | (name, value) :: members =>
    if name = "components" then Component.listOfJson value
    else Component.childrenByName members

/-- The children of a component among its fields in order. -/
def Component.childrenByPlace (names : List String) :
    List Json → Except Json.Error (List Component)
  | [] => .ok []
  | value :: values =>
    if names.head? = some "components" then Component.listOfJson value
    else Component.childrenByPlace names.tail values

/-- A stored list of components. -/
def Component.listOfJson : Json → Except Json.Error (List Component)
  | .array items => Component.itemsOfJson items
  | json => json.mismatch "a list of components was expected"

/-- The components that items store. -/
def Component.itemsOfJson : List Json → Except Json.Error (List Component)
  | [] => .ok []
  | item :: items => do
    let first ← Component.ofJson item
    let rest ← Component.itemsOfJson items
    return first :: rest

end

mutual

/-- A component as JSON. -/
def Component.toJson : Component → Json
  | .node element children =>
    ofFields
      [("id", some (.string element.id)),
       ("persistentId", some (ofOption .string element.persistentId)),
       ("tagName", some (ofOption .string element.tagName)),
       ("attributes", some (ofMap AttributeValue.toJson element.attributes)),
       ("classes", some (ofStrings element.classes)),
       ("content", some (.string element.content)),
       ("components", some (.array (Component.itemsToJson children))),
       ("privateStates", some (ofList StoredState.toJson element.privateStates)),
       ("publicStates", some (ofList StoredState.toJson element.publicStates)),
       ("unwrap", some (.bool element.unwrap)),
       ("conditionOperator", some (ofOption Operator.toJson element.operator))]

/-- Components as JSON items. -/
def Component.itemsToJson : List Component → List Json
  | [] => []
  | tree :: trees => Component.toJson tree :: Component.itemsToJson trees

end

end PagePress
