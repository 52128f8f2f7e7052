import PagePress.Json.Decode
import PagePress.Page.Component
import PagePress.Text.Blank
import PagePress.Text.Lines

/-!
# Page settings

The settings of one page, as a form stores them: each is a text, whatever the form took it from.
Eight of them may hold a stored expression, `ExpressionSetting` names these, and six of those are
for search engines and social sites.

## Main results

* `get_set` — a setting that was set reads as its new value, and the others as before.
-/

namespace PagePress

open Json

/-- The settings of a page. -/
structure PageSettings where
  /-- What the page is generated from: a stored expression or a path. -/
  pageData : Option String := none
  pageSize : Option String := none
  pageReverse : Bool := false
  /-- The address of the page: a stored expression or a text. -/
  permalink : Option String := none
  /-- Languages between commas. -/
  languagesList : Option String := none
  languagesDefault : Option String := none
  navigationKey : Option String := none
  navigationTitle : Option String := none
  navigationOrder : Option String := none
  navigationParent : Option String := none
  navigationUrl : Option String := none
  seoTitle : Option String := none
  seoDescription : Option String := none
  favicon : Option String := none
  ogImage : Option String := none
  ogTitle : Option String := none
  ogDescription : Option String := none
deriving DecidableEq, Repr

instance : Inhabited PageSettings := ⟨{}⟩

/-- A text without the blanks at its ends, when something is left of it. -/
def nonBlank? (text : Option String) : Option String :=
  (text.map Text.trim).filter fun trimmed => !trimmed.isEmpty

/-- The languages of a page in their order, repeated ones included. -/
def PageSettings.languages (s : PageSettings) : List String :=
  ((Text.cutText ',' (s.languagesList.getD "")).map Text.trim).filter fun lang => !lang.isEmpty

/-- Whether a page is generated from data. -/
def PageSettings.isCollectionPage (s : PageSettings) : Bool :=
  (nonBlank? s.pageData).isSome

/-! ## Settings that hold expressions -/

/-- A setting that may hold a stored expression. -/
inductive ExpressionSetting where
  | pageData
  | permalink
  | seoTitle
  | seoDescription
  | favicon
  | ogImage
  | ogTitle
  | ogDescription
deriving DecidableEq, Repr

namespace ExpressionSetting

/-- The name that a setting is stored under. -/
def name : ExpressionSetting → String
  | pageData => "eleventyPageData"
  | permalink => "eleventyPermalink"
  | seoTitle => "eleventySeoTitle"
  | seoDescription => "eleventySeoDescription"
  | favicon => "eleventyFavicon"
  | ogImage => "eleventyOGImage"
  | ogTitle => "eleventyOGTitle"
  | ogDescription => "eleventyOGDescription"

/-- The settings in the order in which they are validated. -/
def all : List ExpressionSetting :=
  [pageData, permalink, seoTitle, seoDescription, favicon, ogImage, ogTitle, ogDescription]

/-- The settings for search engines and social sites. -/
def forSharing : List ExpressionSetting :=
  [seoTitle, seoDescription, favicon, ogImage, ogTitle, ogDescription]

/-- The text of a setting. -/
def get (s : PageSettings) : ExpressionSetting → Option String
  | pageData => s.pageData
  | permalink => s.permalink
  | seoTitle => s.seoTitle
  | seoDescription => s.seoDescription
  | favicon => s.favicon
  | ogImage => s.ogImage
  | ogTitle => s.ogTitle
  | ogDescription => s.ogDescription

/-- The settings with another text for one of them. -/
def set (s : PageSettings) (value : Option String) : ExpressionSetting → PageSettings
  | pageData => { s with pageData := value }
  | permalink => { s with permalink := value }
  | seoTitle => { s with seoTitle := value }
  | seoDescription => { s with seoDescription := value }
  | favicon => { s with favicon := value }
  | ogImage => { s with ogImage := value }
  | ogTitle => { s with ogTitle := value }
  | ogDescription => { s with ogDescription := value }

theorem get_set (s : PageSettings) (value : Option String) (a b : ExpressionSetting) :
    get (set s value a) b = if b = a then value else get s b := by
  cases a <;> cases b <;> rfl

end ExpressionSetting

/-! ## Stored settings -/

/-- The names that settings are stored under, in order. -/
def PageSettings.fieldNames : List String :=
  ["eleventyPageData", "eleventyPageSize", "eleventyPageReverse", "eleventyPermalink",
    "silexLanguagesList", "silexLanguagesDefault", "eleventyNavigationKey",
    "eleventyNavigationTitle", "eleventyNavigationOrder", "eleventyNavigationParent",
    "eleventyNavigationUrl", "eleventySeoTitle", "eleventySeoDescription", "eleventyFavicon",
    "eleventyOGImage", "eleventyOGTitle", "eleventyOGDescription"]

/-- The text of a form field that may be any value; `null` is no text. -/
def Json.asFormText (json : Json) : Except Json.Error (Option String) := do
  match json with
  | .null => return none
  | json =>
    let value ← Json.Value.ofJson json
    return some value.text

/-- The texts that tick a box. -/
def tickedTexts : List String := ["true", "on", "1"]

/-- Whether a form field of any value ticks a box: `true`, one of the texts, or a whole number
other than zero that a signed 64-bit word holds. -/
def Json.asTick (json : Json) : Except Json.Error Bool := do
  let value ← Json.Value.ofJson json
  match value.json with
  | .bool value => return value
  | .string text => return tickedTexts.contains text
  | .number (.whole value) => return value ≠ 0 && value < Json.signedLimit
  | _ => return false

/-- Settings as JSON. -/
def PageSettings.toJson (s : PageSettings) : Json :=
  let text := fun value : Option String => value.map Json.string
  ofFields
    [("eleventyPageData", text s.pageData),
     ("eleventyPageSize", text s.pageSize),
     ("eleventyPageReverse", some (.bool s.pageReverse)),
     ("eleventyPermalink", text s.permalink),
     ("silexLanguagesList", text s.languagesList),
     ("silexLanguagesDefault", text s.languagesDefault),
     ("eleventyNavigationKey", text s.navigationKey),
     ("eleventyNavigationTitle", text s.navigationTitle),
     ("eleventyNavigationOrder", text s.navigationOrder),
     ("eleventyNavigationParent", text s.navigationParent),
     ("eleventyNavigationUrl", text s.navigationUrl),
     ("eleventySeoTitle", text s.seoTitle),
     ("eleventySeoDescription", text s.seoDescription),
     ("eleventyFavicon", text s.favicon),
     ("eleventyOGImage", text s.ogImage),
     ("eleventyOGTitle", text s.ogTitle),
     ("eleventyOGDescription", text s.ogDescription)]

/-- Stored settings. -/
def PageSettings.ofJson (json : Json) : Except Json.Error PageSettings := do
  let record ← asRecord PageSettings.fieldNames json
  let text := fun name : String => record.optional name none (asOption asString)
  return {
    pageData := ← text "eleventyPageData"
    pageSize := ← record.optional "eleventyPageSize" none asFormText
    pageReverse := ← record.optional "eleventyPageReverse" false asTick
    permalink := ← text "eleventyPermalink"
    languagesList := ← text "silexLanguagesList"
    languagesDefault := ← text "silexLanguagesDefault"
    navigationKey := ← text "eleventyNavigationKey"
    navigationTitle := ← text "eleventyNavigationTitle"
    navigationOrder := ← record.optional "eleventyNavigationOrder" none asFormText
    navigationParent := ← text "eleventyNavigationParent"
    navigationUrl := ← text "eleventyNavigationUrl"
    seoTitle := ← text "eleventySeoTitle"
    seoDescription := ← text "eleventySeoDescription"
    favicon := ← text "eleventyFavicon"
    ogImage := ← text "eleventyOGImage"
    ogTitle := ← text "eleventyOGTitle"
    ogDescription := ← text "eleventyOGDescription" }

end PagePress
