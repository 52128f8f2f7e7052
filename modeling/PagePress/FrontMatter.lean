import PagePress.Block
import PagePress.Page.Validation

/-!
# Front matter

The lines before a template that tell the generator what the page is made from, where it goes and
how it is found. Lines without text are left out, and a blank line stands before the closing mark.
-/

namespace PagePress

namespace FrontMatter

/-! ## Pagination -/

/-- Whether a token may stand in a pagination path. -/
def isPathToken : Token → Bool
  | .property p => !p.isFixed
  | _ => false

/-- The path of a pagination expression in the generator's data. -/
def paginationPath (options : Options) (expression : Expression) : Except PublishError String := do
  if !expression.all isPathToken then
    throw (.invalidSetting ExpressionSetting.pageData.name .notAPath)
  match expression.path with
  | .error error => throw (.expression error)
  | .ok path =>
    return match expression.source? options.globalSources with
      | some source => source ++ "." ++ path
      | none => path

/-- What a page is generated from. -/
def paginationData (options : Options) (settings : PageSettings) :
    Except PublishError (Option String) := do
  match nonBlank? settings.pageData with
  | none => return none
  | some raw =>
    match ← parseSetting ExpressionSetting.pageData.name raw with
    | none => return none
    | some (.text path) => return some path
    | some (.expression expression) => return some (← paginationPath options expression)

/-- The lines of the pagination of a page. -/
def paginationLines (settings : PageSettings) (data : String) : List String :=
  ["pagination:", "  data: " ++ data, "  size: " ++ (nonBlank? settings.pageSize).getD "1"] ++
    if settings.pageReverse then ["  reverse: true"] else []

/-! ## Permalinks -/

/-- The address of a page that has none of its own. -/
def defaultPermalink (settings : PageSettings) (slug : String) : Option String :=
  if settings.isCollectionPage then none
  else if slug = "index" then some "/index.html"
  else some ("/" ++ slug ++ "/index.html")

/-- The address that an expression gives: a fixed value alone is the address, anything else is
printed by the template. -/
def expressionPermalink (body : Element) (expression : Expression) : Pass PublishError String :=
  let printed := (Block.echoInline body expression).mapError .expression
  match expression with
  | [.property p] => if p.isFixed then pure p.fixedText else printed
  | _ => printed

/-- What the permalink setting of a page holds. -/
def ownPermalink (settings : PageSettings) : Except PublishError (Option StoredSetting) :=
  match settings.permalink with
  | some raw => parseSetting ExpressionSetting.permalink.name raw
  | none => .ok none

/-- The address of a page; without one the generator takes it from the pagination. -/
def permalink (settings : PageSettings) (slug : String) (body : Element) :
    Pass PublishError (Option String) := do
  match ← Pass.ofExcept (ownPermalink settings) with
  | some (.text text) => return some text
  | some (.expression expression) => return some (← expressionPermalink body expression)
  | none => return defaultPermalink settings slug

/-! ## Lines -/

/-- A line with a quoted value. -/
def quotedLine (key value : String) : String :=
  key ++ ": \"" ++ Text.backslashQuotes value ++ "\""

/-- A line with a quoted value, when there is a value with text. -/
def quotedLine? (key : String) (value : Option String) : List String :=
  match value with
  | some value => if value.isEmpty then [] else [quotedLine key value]
  | none => []

/-- The entries of the navigation settings of a page. -/
def navigationEntries (settings : PageSettings) : List String :=
  [("key", settings.navigationKey), ("title", settings.navigationTitle),
    ("order", settings.navigationOrder), ("parent", settings.navigationParent),
    ("url", settings.navigationUrl)].filterMap fun entry =>
      (nonBlank? entry.2).map fun value => "  " ++ entry.1 ++ ": " ++ value

/-- The lines of the navigation of a page. -/
def navigationLines (settings : PageSettings) : List String :=
  match navigationEntries settings with
  | [] => []
  | entries => "eleventyNavigation:" :: entries

/-- Lines as a front matter block. -/
def block (lines : List String) : String :=
  "\n".intercalate ((("---" :: lines).filter fun line => !Text.isBlankText line) ++ ["", "---", ""])

end FrontMatter

open FrontMatter in
/-- The front matter of a page in a collection, when it is named, and in a language, when it has
one. -/
def frontMatter (options : Options) (settings : PageSettings) (slug : String) (body : Element)
    (collection lang : Option String) : Pass PublishError String := do
  let data ← Pass.ofExcept (paginationData options settings)
  let address ← permalink settings slug body
  let pagination := match data with
    | some data => paginationLines settings data
    | none => []
  let permalinkLine := match address with
    | some address => [quotedLine "permalink" address]
    | none => []
  return block (pagination ++ permalinkLine ++ quotedLine? "lang" lang ++
    quotedLine? "collection" collection ++ navigationLines settings)

/-! ## States of the body -/

/-- The states that alias the pagination of a page, with their values. -/
def paginationAliases (options : Options) : List (String × String) :=
  [("pagination", "pagination"), ("items", "pagination.items")] ++
    if options.aliasPages then [("pages", "pagination.pages")] else []

/-- Whether a body publishes its pagination. -/
def Element.publishesPagination (body : Element) : Bool :=
  match body.publicState? "pagination" with
  | some state => !state.expression.isEmpty
  | none => false

/-- The tags that publish the pagination of a page as states of its body. -/
def bodyStates (options : Options) (body : Element) : String :=
  match body.publishesPagination, body.persistentId? with
  | true, some id =>
    String.join ((paginationAliases options).map fun entry =>
      Block.tag ("assign " ++ stateVariable id entry.1 ++ " = " ++ entry.2) ++ "\n")
  | _, _ => ""

end PagePress
