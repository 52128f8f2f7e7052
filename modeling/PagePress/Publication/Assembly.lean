import PagePress.DataFile
import PagePress.FrontMatter
import PagePress.Publication.Files
import PagePress.Publication.Host
import PagePress.Slug

/-!
# Assembling pages

Rendered pages become input of the generator. Each page gets front matter and the states of its
body, once for each of its languages, and a data file with its queries beside each. The page is
found among the files by its path; what comes of it takes its place and goes to the end. A page
whose settings do not compile is taken out, with a notice; any other error ends the assembly.

## Main results

* `assemble_append` — assembling pages in two goes is assembling them in one.
-/

namespace PagePress

/-- Work on a release: the context of the pass, the files so far, and the notices so far. -/
structure Draft where
  context : Context
  files : List PublishedFile
  notices : List Notice

namespace Assembly

/-! ## The files of one page -/

/-- The path of a page. -/
def pagePath (options : Options) (slug : String) : String :=
  Route.location options .html ("/" ++ slug ++ ".html")

/-- The path of the data file of a page. -/
def dataPath (options : Options) (slug : String) : String :=
  Route.location options .html ("/" ++ slug ++ ".11tydata.js")

/-- The page with the states for its settings among those of its body, so that its query covers
them. -/
def withSharingStates (page : Page) : Page :=
  let body := page.component.element
  { page with
    component := page.component.withElement
      { body with publicStates := body.publicStates ++ page.settings.sharingStates } }

/-- The queries of a page that have any text. -/
def pageQuery (host : Host) (page : Page) : OrderedMap String :=
  (host.pageQuery (withSharingStates page)).filter fun _ payload => !Text.isBlankText payload

/-- The data file of a page, when it has queries. -/
def pageDataFile? (host : Host) (options : Options) (page : Page) :
    Pass PublishError (Option PublishedFile) := do
  let query := pageQuery host page
  if query.isEmpty then
    return none
  let content ← dataFile options host.dataSource query
  return some ⟨dataPath options (pageSlug page.name), .other, content⟩

/-- The content of a page with its front matter, in a language when one is given. -/
def pageContent (options : Options) (page : Page) (lang : Option String) (content : String) :
    Pass PublishError String := do
  let body := page.component.element
  let header ← frontMatter options page.settings (pageSlug page.name) body (some page.name) lang
  return header ++ bodyStates options body ++ content

/-- The file of a page in a language, and its data file. -/
def variant (options : Options) (page : Page) (file : PublishedFile)
    (data : Option PublishedFile) (lang : String) : Pass PublishError (List PublishedFile) := do
  let content ← pageContent options page (some lang) file.content
  let template : PublishedFile := ⟨Route.withLanguage ".html" lang file.path, .html, content⟩
  let data := data.map fun data =>
    { data with path := Route.withLanguage ".11tydata.js" lang data.path }
  return template :: data.toList

/-- The files of a page in each of its languages. -/
def variants (options : Options) (page : Page) (file : PublishedFile)
    (data : Option PublishedFile) : List String → Pass PublishError (List PublishedFile)
  | [] => return []
  | lang :: langs => do
    let first ← variant options page file data lang
    let rest ← variants options page file data langs
    return first ++ rest

/-- What a rendered page becomes. -/
def pageFiles (host : Host) (options : Options) (page : Page) (file : PublishedFile) :
    Pass PublishError (List PublishedFile) := do
  let data ← pageDataFile? host options page
  match page.settings.languages with
  | [] =>
    let content ← pageContent options page none file.content
    return { file with content := content } :: data.toList
  | langs => variants options page file data langs

/-! ## The files of a site -/

/-- The files with others in place of the one at a place: the first there, the rest at the end. -/
def placeFiles (files : List PublishedFile) (place : Nat) :
    List PublishedFile → List PublishedFile
  | [] => files
  | first :: rest => files.set place first ++ rest

/-- Assembles the page whose file is at a place. -/
def assembleAt (host : Host) (options : Options) (page : Page) (place : Nat)
    (file : PublishedFile) (draft : Draft) : Option PublishError × Draft :=
  match (pageFiles host options page file).runIn draft.context with
  | (.ok files, context) =>
    (none, { draft with context := context, files := placeFiles draft.files place files })
  | (.error error, context) =>
    if error.isPageLocal then
      (none, {
        context := context
        files := draft.files.eraseIdx place
        notices := draft.notices ++ [.pageDropped page.name error] })
    else (some error, { draft with context := context })

/-- The place and the file of a path. -/
def findFile? (path : String) : List PublishedFile → Option (Nat × PublishedFile)
  | [] => none
  | file :: files =>
    if file.path = path then some (0, file)
    else (findFile? path files).map fun found => (found.1 + 1, found.2)

/-- Assembles one page. -/
def assemblePage (host : Host) (options : Options) (page : Page) (draft : Draft) :
    Option PublishError × Draft :=
  let path := pagePath options (pageSlug page.name)
  match findFile? path draft.files with
  | none => (some (.missingPageFile path), draft)
  | some (place, file) =>
    if file.type = .html then assembleAt host options page place file draft
    else (some (.notHtml path), draft)

/-- Assembles pages in order, up to the first error that ends the assembly. -/
def assemble (host : Host) (options : Options) :
    List Page → Draft → Option PublishError × Draft
  | [], draft => (none, draft)
  | page :: pages, draft =>
    match assemblePage host options page draft with
    | (none, next) => assemble host options pages next
    | (some error, next) => (some error, next)

theorem assemble_append (host : Host) (options : Options) (first second : List Page)
    (draft : Draft) :
    assemble host options (first ++ second) draft =
      match assemble host options first draft with
      | (none, next) => assemble host options second next
      | (some error, next) => (some error, next) := by
  induction first generalizing draft with
  | nil => rfl
  | cons page pages ih =>
    simp only [List.cons_append, assemble]
    split
    · rename_i next heq
      exact ih next
    · rfl

end Assembly

end PagePress
