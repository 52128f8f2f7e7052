import PagePress.Expression.Token
import PagePress.Json.Decode
import PagePress.Json.Reader

/-!
# Stored expressions

How tokens and fields are written as JSON. A token is a record with a `type`; as an object its type
may stand anywhere, as a list it comes first. Every part of a token must have a meaning, the members
that no field takes included.
-/

namespace PagePress

open Json

/-! ## Shapes and fields -/

/-- A shape as JSON. -/
def Kind.toJson (kind : Kind) : Json := .string kind.name

/-- A shape by its name. -/
def Kind.ofJson : Json → Except Json.Error Kind := asChoice Kind.named?

/-- A shape inside a token, where a choice may also carry an object without members. -/
def Kind.ofTokenJson : Json → Except Json.Error Kind := asChoiceWith isNothing Kind.named?

/-- A list of texts as JSON. -/
def Json.ofStrings : List String → Json := ofList .string

/-- A list of texts. -/
def Json.asStrings : Json → Except Json.Error (List String) := asList asString

/-- The fields of a `Field`. -/
def Field.fieldNames : List String := ["id", "label", "typeIds", "kind", "dataSourceId"]

/-- A field as JSON. -/
def Field.toJson (f : Field) : Json :=
  ofFields
    [("id", some (.string f.id)),
     ("label", some (.string f.label)),
     ("typeIds", some (ofStrings f.typeIds)),
     ("kind", some f.kind.toJson),
     ("dataSourceId", f.dataSourceId.map .string)]

/-- A stored field. -/
def Field.ofJson (json : Json) : Except Json.Error Field := do
  let record ← asRecord Field.fieldNames json
  return {
    id := ← record.required "id" asString
    label := ← record.optional "label" "" asString
    typeIds := ← record.optional "typeIds" [] asStrings
    kind := ← record.required "kind" Kind.ofJson
    dataSourceId := ← record.optional "dataSourceId" none (asOption asString) }

/-! ## The records of tokens -/

/-- A map of free values as JSON. -/
def Json.ofValues : OrderedMap Json.Value → Json := ofMap Json.Value.json

/-- A map of free values. -/
def Json.asValues : Json → Except Json.Error (OrderedMap Json.Value) := asMap Json.Value.ofJson

/-- The fields of a `Property`. -/
def Property.fieldNames : List String :=
  ["fieldId", "label", "dataSourceId", "typeIds", "kind", "options"]

/-- The fields of a property as they are written. -/
def Property.fields (p : Property) : List (String × Option Json) :=
  [("fieldId", some (.string p.fieldId)),
   ("label", some (.string p.label)),
   ("dataSourceId", p.dataSourceId.map .string),
   ("typeIds", some (ofStrings p.typeIds)),
   ("kind", some p.kind.toJson),
   ("options", p.options.map ofValues)]

/-- A stored property. -/
def Property.ofJson (json : Json) : Except Json.Error Property := do
  let record ← asRecord Property.fieldNames json
  return {
    fieldId := ← record.required "fieldId" asString
    label := ← record.optional "label" "" asString
    dataSourceId := ← record.optional "dataSourceId" none (asOption asString)
    typeIds := ← record.optional "typeIds" [] asStrings
    kind := ← record.optional "kind" .scalar Kind.ofTokenJson
    options := ← record.optional "options" none (asOption asValues) }

/-- The fields of a `StateRef`. -/
def StateRef.fieldNames : List String :=
  ["componentId", "storedStateId", "exposed", "forceKind", "label"]

/-- The fields of a state reference as they are written. -/
def StateRef.fields (s : StateRef) : List (String × Option Json) :=
  [("componentId", some (.string s.componentId)),
   ("storedStateId", some (.string s.storedStateId)),
   ("exposed", some (.bool s.exposed)),
   ("forceKind", s.forceKind.map Kind.toJson),
   ("label", s.label.map .string)]

/-- A stored state reference. -/
def StateRef.ofJson (json : Json) : Except Json.Error StateRef := do
  let record ← asRecord StateRef.fieldNames json
  return {
    componentId := ← record.required "componentId" asString
    storedStateId := ← record.required "storedStateId" asString
    exposed := ← record.optional "exposed" false asBool
    forceKind := ← record.optional "forceKind" none (asOption Kind.ofTokenJson)
    label := ← record.optional "label" none (asOption asString) }

/-- The fields of a `Filter`. -/
def Filter.fieldNames : List String := ["id", "label", "options"]

/-- The fields of a filter as they are written. -/
def Filter.fields (f : Filter) : List (String × Option Json) :=
  [("id", some (.string f.id)),
   ("label", some (.string f.label)),
   ("options", some (ofValues f.options))]

/-- A stored filter. -/
def Filter.ofJson (json : Json) : Except Json.Error Filter := do
  let record ← asRecord Filter.fieldNames json
  return {
    id := ← record.required "id" asString
    label := ← record.optional "label" "" asString
    options := ← record.optional "options" .empty asValues }

/-! ## Tokens -/

/-- A token as JSON, its type first. -/
def Token.toJson : Token → Json
  | .property p => ofFields (("type", some (.string "property")) :: p.fields)
  | .state s => ofFields (("type", some (.string "state")) :: s.fields)
  | .filter f => ofFields (("type", some (.string "filter")) :: f.fields)

/-- The token of a type and of the record without the type. -/
def Token.ofTyped (type : String) (record : Json) : Except Json.Error Token :=
  if type = "property" then (Property.ofJson record).map .property
  else if type = "state" then (StateRef.ofJson record).map .state
  else if type = "filter" then (Filter.ofJson record).map .filter
  else fail "the type of a token is unknown"

/-- Splits a token into its type and the record without it. -/
def Token.splitType : Json → Except Json.Error (Json × Json)
  | .object members =>
    match members.filter (·.1 = "type") with
    | [type] => .ok (type.2, .object (members.filter (·.1 ≠ "type")))
    | [] => fail "a token has no type"
    | _ => fail "a token has two types"
  | .array (type :: rest) => .ok (type, .array rest)
  | _ => fail "a token was expected"

/-- A stored token. -/
def Token.ofJson (json : Json) : Except Json.Error Token := do
  json.checkReadable
  let (type, record) ← Token.splitType json
  Token.ofTyped (← asString type) record

/-- An expression as JSON. -/
def Expression.toJson (expression : Expression) : Json := ofList Token.toJson expression

/-- A stored expression. -/
def Expression.ofJson : Json → Except Json.Error Expression := asList Token.ofJson

/-- The stored expression that a text holds. -/
def Expression.read (text : String) : Except Json.Error Expression := do
  Expression.ofJson (← Json.read text)

end PagePress
