import PagePress.Decimal.Magnitude

/-!
# JSON trees

A tree is what a text means: members and items in the order of the text, repeated names included.
A part that is well formed but means nothing, such as a number beyond double precision, a string
with half a surrogate pair or a nesting too deep, is kept as `unreadable`. Whoever skips that part
does not notice; whoever uses it fails with its error.
-/

namespace PagePress

/-- Why a text or a tree was refused. -/
structure Json.Error where
  reason : String
deriving DecidableEq, Repr, Inhabited

/-- The first whole number that 64 bits do not hold. -/
def Json.wordLimit : Nat := 18446744073709551616

/-- The first whole number that the 63 bits beside a sign do not hold. -/
def Json.signedLimit : Nat := 9223372036854775808

/-- A number: whole when it was written without point and exponent and fits in 64 bits, else of
double precision. -/
inductive Json.Number where
  | whole (value : Int)
  | double (negative : Bool) (magnitude : Decimal.Magnitude)
deriving DecidableEq, Repr

/-- A JSON tree. -/
inductive Json where
  | null
  | bool (value : Bool)
  | number (value : Json.Number)
  | string (text : String)
  | array (items : List Json)
  | object (members : List (String × Json))
  | unreadable (error : Json.Error)

instance : Inhabited Json := ⟨.null⟩

/-- Failing with a reason. -/
def Json.fail {α : Type} (reason : String) : Except Json.Error α := .error ⟨reason⟩

end PagePress
