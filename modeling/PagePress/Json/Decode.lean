import PagePress.Json.Value
import PagePress.OrderedMap

/-!
# Reading values out of trees

What a tree must be to give a text, a flag, a list, a map, a choice or a record.

A record may be written in two ways: as an object of its fields by name, where unknown names are
skipped and a known name may not be repeated, or as a list of its fields in their order, where the
last ones may be missing. A choice is written by its name, or as an object whose one member has
that name and the value `null`.

## Main results

* `record_object` — the fields of a record written by name.
-/

namespace PagePress.Json

/-! ## Single values -/

/-- The error of a part without meaning, else a reason. -/
def mismatch {α : Type} (json : Json) (reason : String) : Except Error α :=
  match json with
  | .unreadable error => .error error
  | _ => fail reason

/-- A string. -/
def asString : Json → Except Error String
  | .string text => .ok text
  | json => json.mismatch "a string was expected"

/-- A flag. -/
def asBool : Json → Except Error Bool
  | .bool value => .ok value
  | json => json.mismatch "a boolean was expected"

/-- A list of values that are read alike. -/
def asList {α : Type} (item : Json → Except Error α) : Json → Except Error (List α)
  | .array items => items.mapM item
  | json => json.mismatch "a list was expected"

/-- A member of a map. -/
def asMember {α : Type} (value : Json → Except Error α) (member : String × Json) :
    Except Error (String × α) := do
  return (member.1, ← value member.2)

/-- A map whose values are read alike. -/
def asMap {α : Type} (value : Json → Except Error α) : Json → Except Error (OrderedMap α)
  | .object members => do
    let entries ← members.mapM (asMember value)
    return OrderedMap.ofList entries
  | json => json.mismatch "a map was expected"

/-- A value that may be `null`. -/
def asOption {α : Type} (value : Json → Except Error α) : Json → Except Error (Option α)
  | .null => .ok none
  | json => (value json).map some

/-! ## Choices -/

/-- A choice by its name. The payload of a choice written as an object must pass a test. -/
def asChoiceWith {α : Type} (payload : Json → Bool) (named : String → Option α) :
    Json → Except Error α
  | .string name => orElse (named name)
  | .object [(name, value)] =>
    if payload value then orElse (named name) else value.mismatch "a choice takes no value"
  | json => json.mismatch "the name of a choice was expected"
where
  /-- The choice, or that its name is unknown. -/
  orElse : Option α → Except Error α
    | some choice => .ok choice
    | none => fail "the choice is unknown"

/-- Whether a tree is `null`. -/
def isNull : Json → Bool
  | .null => true
  | _ => false

/-- Whether a tree is `null` or an object without members. -/
def isNothing : Json → Bool
  | .null => true
  | .object [] => true
  | _ => false

/-- A choice by its name. -/
def asChoice {α : Type} (named : String → Option α) : Json → Except Error α :=
  asChoiceWith isNull named

/-! ## Records -/

/-- The fields of a record that are there, by name. -/
abbrev Record := List (String × Json)

/-- The members with known names, unless one of those is repeated. -/
def knownMembers (names : List String) (members : List (String × Json)) : Except Error Record :=
  let known := members.filter fun member => names.contains member.1
  if (known.map Prod.fst).Nodup then .ok known else fail "a field is repeated"

/-- The fields of a record whose field names are given in order. -/
def asRecord (names : List String) : Json → Except Error Record
  | .object members => knownMembers names members
  | .array items =>
    if items.length ≤ names.length then .ok (names.zip items) else fail "there are too many fields"
  | json => json.mismatch "a record was expected"

/-- A field that must be there. -/
def Record.required {α : Type} (record : Record) (name : String) (value : Json → Except Error α) :
    Except Error α :=
  match record.lookup name with
  | some json => value json
  | none => fail ("the field " ++ name ++ " is missing")

/-- A field with a value for when it is not there. -/
def Record.optional {α : Type} (record : Record) (name : String) (absent : α)
    (value : Json → Except Error α) : Except Error α :=
  match record.lookup name with
  | some json => value json
  | none => .ok absent

theorem record_object {names : List String} {members : List (String × Json)}
    (known : ∀ member ∈ members, member.1 ∈ names) (distinct : (members.map Prod.fst).Nodup) :
    asRecord names (.object members) = .ok members := by
  have hf : members.filter (fun member => names.contains member.1) = members := by
    apply List.filter_eq_self.2
    intro member hm
    simpa using known member hm
  show knownMembers names members = .ok members
  unfold knownMembers
  simp only [hf, distinct, if_true]

/-! ## Writing records -/

/-- The object of the fields that are there. -/
def ofFields (fields : List (String × Option Json)) : Json :=
  .object (fields.filterMap fun field => field.2.map fun value => (field.1, value))

/-- A text or `null`. -/
def ofOption {α : Type} (value : α → Json) : Option α → Json
  | some x => value x
  | none => .null

/-- A list. -/
def ofList {α : Type} (item : α → Json) (items : List α) : Json :=
  .array (items.map item)

/-- A map. -/
def ofMap {α : Type} (value : α → Json) (m : OrderedMap α) : Json :=
  .object (m.mapValues value).entries

/-! ## Parts that must all be readable -/

mutual

/-- Fails with the error of a part without meaning, however deep. -/
def checkReadable : Json → Except Error Unit
  | .array items => checkItems items
  | .object members => checkMembers members
  | .unreadable error => .error error
  | _ => .ok ()

/-- Fails with the error of a part of an item without meaning. -/
def checkItems : List Json → Except Error Unit
  | [] => .ok ()
  | item :: items => do
    checkReadable item
    checkItems items

/-- Fails with the error of a part of a member without meaning. -/
def checkMembers : List (String × Json) → Except Error Unit
  | [] => .ok ()
  | (_, value) :: members => do
    checkReadable value
    checkMembers members

end

end PagePress.Json
