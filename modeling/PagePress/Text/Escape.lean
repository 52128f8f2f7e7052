/-!
# Escaped text

Texts are written into markup, into string and template literals of a script and into quoted
scalars. Each form replaces single characters, so each is a `replaceChars`; only the template
literal looks at two characters, because there a dollar sign matters only before a brace.

## Main results

* `toList_replaceChars` — replacement works character by character.
-/

namespace PagePress.Text

/-- Every character replaced by a text. -/
def replaceChars (f : Char → List Char) (text : String) : String :=
  String.ofList (text.toList.flatMap f)

@[simp] theorem toList_replaceChars (f : Char → List Char) (text : String) :
    (replaceChars f text).toList = text.toList.flatMap f := by
  simp [replaceChars]

theorem replaceChars_append (f : Char → List Char) (a b : String) :
    replaceChars f (a ++ b) = replaceChars f a ++ replaceChars f b := by
  simp [replaceChars, String.ofList_append]

/-! ## Attribute values -/

/-- The entity of a character that may not stand in a double quoted attribute value. -/
def attributeEntity (c : Char) : List Char :=
  if c = '&' then "&amp;".toList else if c = '"' then "&quot;".toList else [c]

/-- A text as the value of a double quoted attribute. -/
def escapeAttribute : String → String :=
  replaceChars attributeEntity

/-- A text with its double quotes as entities. -/
def escapeDoubleQuotes : String → String :=
  replaceChars fun c => if c = '"' then "&quot;".toList else [c]

/-! ## Literals of a script -/

/-- A backslash before the quote and before a backslash. -/
def singleQuotedChar (c : Char) : List Char :=
  if c = '\\' then ['\\', '\\'] else if c = '\'' then ['\\', '\''] else [c]

/-- A single quoted string literal. -/
def singleQuoted (text : String) : String :=
  "'" ++ replaceChars singleQuotedChar text ++ "'"

/-- The characters of a template literal that stands for the text: a backslash goes before every
backslash and backtick, and before a dollar sign that a brace follows. -/
def templateChars : List Char → List Char
  | [] => []
  | '$' :: '{' :: rest => '\\' :: '$' :: '{' :: templateChars rest
  | c :: rest =>
    if c = '\\' then '\\' :: '\\' :: templateChars rest
    else if c = '\x60' then '\\' :: '\x60' :: templateChars rest
    else c :: templateChars rest

/-- A text inside a template literal. -/
def escapeTemplate (text : String) : String :=
  String.ofList (templateChars text.toList)

/-! ## Quoted scalars of front matter -/

/-- A text with a backslash before every double quote. -/
def backslashQuotes : String → String :=
  replaceChars fun c => if c = '"' then ['\\', '"'] else [c]

end PagePress.Text
