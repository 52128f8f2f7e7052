import PagePress.Json.Number

/-!
# Reading JSON

A strict reader. White space is the space, the tab and the two line end characters; nothing may
follow the value; strings hold no control character below the space. Lists and objects may nest
127 deep, and a deeper one is `unreadable`.

The descent carries an amount of fuel that the length of the text bounds, so every text gets its
answer.
-/

namespace PagePress.Json

/-! ## Strings -/

/-- The value of a hexadecimal digit. -/
def hexValue? (c : Char) : Option Nat :=
  if '0' ≤ c ∧ c ≤ '9' then some (c.toNat - '0'.toNat)
  else if 'a' ≤ c ∧ c ≤ 'f' then some (c.toNat - 'a'.toNat + 10)
  else if 'A' ≤ c ∧ c ≤ 'F' then some (c.toNat - 'A'.toNat + 10)
  else none

/-- The code unit of four hexadecimal digits. -/
def codeUnit? (a b c d : Char) : Option Nat := do
  return 4096 * (← hexValue? a) + 256 * (← hexValue? b) + 16 * (← hexValue? c) + (← hexValue? d)

/-- The character of a one-letter escape. -/
def escape? (c : Char) : Option Char :=
  if c = '"' ∨ c = '\\' ∨ c = '/' then some c
  else if c = 'b' then some '\x08'
  else if c = 'f' then some '\x0c'
  else if c = 'n' then some '\n'
  else if c = 'r' then some '\r'
  else if c = 't' then some '\t'
  else none

/-- The code points and escaped code units of a string up to its closing quote, and the text after
that. -/
def readUnits : List Char → Except Error (List Nat × List Char)
  | [] => fail "a string is not closed"
  | '\\' :: 'u' :: a :: b :: c :: d :: rest =>
    match codeUnit? a b c d with
    | some unit => do
      let (units, rest) ← readUnits rest
      return (unit :: units, rest)
    | none => fail "an escape is not hexadecimal"
  | '\\' :: c :: rest =>
    match escape? c with
    | some char => do
      let (units, rest) ← readUnits rest
      return (char.toNat :: units, rest)
    | none => fail "an escape is unknown"
  | c :: rest =>
    if c = '"' then .ok ([], rest)
    else if c.toNat < 0x20 ∨ c = '\\' then fail "a string holds a control character"
    else do
      let (units, rest) ← readUnits rest
      return (c.toNat :: units, rest)

/-- Whether a code unit opens a surrogate pair. -/
def isHighSurrogate (unit : Nat) : Bool := 0xD800 ≤ unit && unit < 0xDC00

/-- Whether a code unit closes a surrogate pair. -/
def isLowSurrogate (unit : Nat) : Bool := 0xDC00 ≤ unit && unit < 0xE000

/-- The characters of code points and code units, unless half a surrogate pair is among them. -/
def codePoints : List Nat → Option (List Char)
  | [] => some []
  | [unit] =>
    if isHighSurrogate unit || isLowSurrogate unit then none else some [Char.ofNat unit]
  | high :: low :: rest =>
    if isHighSurrogate high then
      if isLowSurrogate low then
        (codePoints rest).map (Char.ofNat (0x10000 + 1024 * (high - 0xD800) + (low - 0xDC00)) :: ·)
      else none
    else if isLowSurrogate high then none
    else (codePoints (low :: rest)).map (Char.ofNat high :: ·)

/-- What the units of a string mean. -/
def stringOfUnits (units : List Nat) : Except Error String :=
  match codePoints units with
  | some chars => .ok (String.ofList chars)
  | none => fail "a string holds half a surrogate pair"

/-! ## Values -/

/-- Whether a character is white space between values. -/
def isSpace (c : Char) : Bool := c = ' ' || c = '\t' || c = '\n' || c = '\r'

/-- A text without the white space at its start. -/
def skipSpaces (cs : List Char) : List Char := cs.dropWhile isSpace

/-- How many lists and objects may be nested. -/
def depthLimit : Nat := 127

/-- A list or object inside `depth` others. -/
def nested (depth : Nat) (json : Json) : Json :=
  if depth < depthLimit then json else .unreadable ⟨"the nesting is too deep"⟩

mutual

/-- The value at the front of a text, inside `depth` lists and objects, and the text after it. -/
def readValue : Nat → Nat → List Char → Except Error (Json × List Char)
  | 0, _, _ => fail "the text is too long"
  | fuel + 1, depth, cs =>
    match skipSpaces cs with
    | '"' :: rest => do
      let (units, rest) ← readUnits rest
      match stringOfUnits units with
      | .ok text => return (.string text, rest)
      | .error error => return (.unreadable error, rest)
    | '[' :: rest => do
      let (items, rest) ← readItems fuel (depth + 1) rest
      return (nested depth (.array items), rest)
    | '\x7b' :: rest => do
      let (members, rest) ← readMembers fuel (depth + 1) rest
      match members with
      | .ok members => return (nested depth (.object members), rest)
      | .error error => return (.unreadable error, rest)
    | 'n' :: 'u' :: 'l' :: 'l' :: rest => .ok (.null, rest)
    | 't' :: 'r' :: 'u' :: 'e' :: rest => .ok (.bool true, rest)
    | 'f' :: 'a' :: 'l' :: 's' :: 'e' :: rest => .ok (.bool false, rest)
    | cs => do
      let (literal, rest) ← readLiteral cs
      return (literal.meaning, rest)

/-- The items of a list after its opening bracket. -/
def readItems : Nat → Nat → List Char → Except Error (List Json × List Char)
  | 0, _, _ => fail "the text is too long"
  | fuel + 1, depth, cs =>
    match skipSpaces cs with
    | ']' :: rest => .ok ([], rest)
    | cs => do
      let (item, rest) ← readValue fuel depth cs
      let (items, rest) ← readItemsAfter fuel depth rest
      return (item :: items, rest)

/-- The items of a list after one of them. -/
def readItemsAfter : Nat → Nat → List Char → Except Error (List Json × List Char)
  | 0, _, _ => fail "the text is too long"
  | fuel + 1, depth, cs =>
    match skipSpaces cs with
    | ']' :: rest => .ok ([], rest)
    | ',' :: rest => do
      let (item, rest) ← readValue fuel depth rest
      let (items, rest) ← readItemsAfter fuel depth rest
      return (item :: items, rest)
    | _ => fail "a list is not closed"

/-- The members of an object after its opening brace; the inner error is that of a name. -/
def readMembers : Nat → Nat → List Char →
    Except Error (Except Error (List (String × Json)) × List Char)
  | 0, _, _ => fail "the text is too long"
  | fuel + 1, depth, cs =>
    match skipSpaces cs with
    | '\x7d' :: rest => .ok (.ok [], rest)
    | '"' :: rest => readMember fuel depth rest
    | _ => fail "a member has no name"

/-- A member of an object after the opening quote of its name, and the members after it. -/
def readMember : Nat → Nat → List Char →
    Except Error (Except Error (List (String × Json)) × List Char)
  | 0, _, _ => fail "the text is too long"
  | fuel + 1, depth, cs => do
    let (units, rest) ← readUnits cs
    match skipSpaces rest with
    | ':' :: rest => do
      let (value, rest) ← readValue fuel depth rest
      let (members, rest) ← readMembersAfter fuel depth rest
      return (do return (← stringOfUnits units, value) :: (← members), rest)
    | _ => fail "a member has no value"

/-- The members of an object after one of them. -/
def readMembersAfter : Nat → Nat → List Char →
    Except Error (Except Error (List (String × Json)) × List Char)
  | 0, _, _ => fail "the text is too long"
  | fuel + 1, depth, cs =>
    match skipSpaces cs with
    | '\x7d' :: rest => .ok (.ok [], rest)
    | ',' :: rest =>
      match skipSpaces rest with
      | '"' :: rest => readMember fuel depth rest
      | _ => fail "a member has no name"
    | _ => fail "an object is not closed"

end

/-- The tree of a text. -/
def read (text : String) : Except Error Json := do
  let cs := text.toList
  let (json, rest) ← readValue (2 * cs.length + 2) 0 cs
  if (skipSpaces rest).isEmpty then return json else fail "there is text after the value"

end PagePress.Json
