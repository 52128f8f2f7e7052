import PagePress.Decimal.Shortest
import PagePress.Json.Basic
import PagePress.Text.Escape

/-!
# Printing JSON

Two layouts. The compact one has no white space at all. The wide one puts every item and member on
a line of its own, two spaces deeper than its parent, one space after each colon, and keeps an
empty list or object closed up.

Strings escape the double quote, the backslash and the control characters below the space, and
leave every other character as it is.
-/

namespace PagePress.Json

/-! ## Leaves -/

/-- The text of a number. -/
def Number.text : Number → String
  | .whole value => toString value
  | .double negative magnitude => magnitude.text negative

/-- The character of a number below sixteen. -/
def hexChar (n : Nat) : Char :=
  Nat.digitChar n

/-- A character inside a printed string. -/
def stringChar (c : Char) : List Char :=
  if c = '"' then ['\\', '"']
  else if c = '\\' then ['\\', '\\']
  else if c = '\x08' then ['\\', 'b']
  else if c = '\t' then ['\\', 't']
  else if c = '\n' then ['\\', 'n']
  else if c = '\x0c' then ['\\', 'f']
  else if c = '\r' then ['\\', 'r']
  else if c.toNat < 0x20 then
    ['\\', 'u', '0', '0', hexChar (c.toNat / 16), hexChar (c.toNat % 16)]
  else [c]

/-- A printed string. -/
def quoted (text : String) : String :=
  "\"" ++ Text.replaceChars stringChar text ++ "\""

/-! ## The compact layout -/

mutual

/-- The compact text of a tree. A part without meaning prints as `null`. -/
def compact : Json → String
  | .null => "null"
  | .bool value => if value then "true" else "false"
  | .number value => value.text
  | .string text => quoted text
  | .array items => "[" ++ ",".intercalate (compactItems items) ++ "]"
  | .object members => "\x7b" ++ ",".intercalate (compactMembers members) ++ "\x7d"
  | .unreadable _ => "null"

/-- The compact texts of items. -/
def compactItems : List Json → List String
  | [] => []
  | item :: items => compact item :: compactItems items

/-- The compact texts of members. -/
def compactMembers : List (String × Json) → List String
  | [] => []
  | (name, value) :: members => (quoted name ++ ":" ++ compact value) :: compactMembers members

end

/-! ## The wide layout -/

/-- A line break and the indentation of a depth. -/
def lineBreak (depth : Nat) : String :=
  "\n" ++ "".pushn ' ' (2 * depth)

/-- Printed parts between brackets, each on a line of its own. -/
def bracketed (opening closing : String) (depth : Nat) : List String → String
  | [] => opening ++ closing
  | parts =>
    opening ++ lineBreak (depth + 1) ++ ("," ++ lineBreak (depth + 1)).intercalate parts ++
      lineBreak depth ++ closing

mutual

/-- The wide text of a tree at a depth. -/
def wideAt (depth : Nat) : Json → String
  | .null => "null"
  | .bool value => if value then "true" else "false"
  | .number value => value.text
  | .string text => quoted text
  | .array items => bracketed "[" "]" depth (wideItems (depth + 1) items)
  | .object members => bracketed "\x7b" "\x7d" depth (wideMembers (depth + 1) members)
  | .unreadable _ => "null"

/-- The wide texts of items at a depth. -/
def wideItems (depth : Nat) : List Json → List String
  | [] => []
  | item :: items => wideAt depth item :: wideItems depth items

/-- The wide texts of members at a depth. -/
def wideMembers (depth : Nat) : List (String × Json) → List String
  | [] => []
  | (name, value) :: members =>
    (quoted name ++ ": " ++ wideAt depth value) :: wideMembers depth members

end

/-- The wide text of a tree. -/
def wide (json : Json) : String := wideAt 0 json

end PagePress.Json
