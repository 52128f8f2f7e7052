import PagePress.Markup.Attribute

/-!
# Tags

A void element has an opening tag only. An element without a tag name is its content.
-/

namespace PagePress.Markup

/-- Elements that have no content and no closing tag. -/
def voidElements : List String :=
  ["area", "base", "br", "col", "embed", "hr", "img", "input", "link", "meta", "param", "source",
    "track", "wbr"]

/-- Whether an element is void, in whatever case its name is written. -/
def isVoid (tag : String) : Bool := voidElements.contains (tag.map Char.toLower)

/-- An opening tag. -/
def openingTag (tag attributes : String) : String :=
  if attributes.isEmpty then "<" ++ tag ++ ">" else "<" ++ tag ++ " " ++ attributes ++ ">"

/-- A tag around content, which a void element does not show. -/
def tagged (tag attributes content : String) : String :=
  if isVoid tag then openingTag tag attributes
  else openingTag tag attributes ++ content ++ "</" ++ tag ++ ">"

/-- The markup of an element without bindings around its content. -/
def plainText (element : Element) (content : String) : String :=
  match element.tag? with
  | none => content
  | some tag => tagged tag (attributesText (staticAttributes element) []) content

end PagePress.Markup
