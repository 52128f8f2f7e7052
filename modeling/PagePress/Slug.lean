import PagePress.Text.Blank
import PagePress.Text.Lines

/-!
# Slugs

The slug of a page name is the name in lower case with dashes for its blanks, less everything that
is not a small ASCII letter, a digit or a dash, and with no dash at its ends or beside another.
So it is its words joined by single dashes.
-/

namespace PagePress

namespace Slug

/-- Whether a character may stand in a word of a slug. -/
def isWordChar (c : Char) : Bool := ('a' ≤ c && c ≤ 'z') || c.isDigit

/-- What a character becomes in lower case, as far as a slug keeps it: the kelvin sign has the
small letter k, and the capital I with a dot above has a small i before its dot. -/
def lower (c : Char) : Char :=
  if c = '\u212a' then 'k' else if c = '\u0130' then 'i' else c.toLower

/-- A character of a name with a dash for a blank. -/
def dashed (c : Char) : Char :=
  if Text.isBlank c then '-' else lower c

/-- The characters of a name that a slug keeps. -/
def kept (name : List Char) : List Char :=
  (name.map dashed).filter fun c => isWordChar c || c = '-'

/-- The words of a name. -/
def words (name : List Char) : List (List Char) :=
  (Text.cut '-' (kept name)).filter fun word => !word.isEmpty

end Slug

/-- The slug of a text. -/
def slugify (text : String) : String :=
  String.ofList (['-'].intercalate (Slug.words text.toList))

/-- The slug of a page name; a page without a name is the index. -/
def pageSlug (name : String) : String :=
  slugify (if name.isEmpty then "index" else name)

end PagePress
