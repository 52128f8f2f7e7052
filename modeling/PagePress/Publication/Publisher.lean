import PagePress.Markup.Rendering
import PagePress.Publication.Assembly

/-!
# Publishing

A pass validates the settings of every page and renders its body, then assembles what was rendered
when the generator's input tree is to be made. A page that does not render is left out, with a
notice.
-/

namespace PagePress

namespace Publisher

/-- Work on the pages of a site: the draft so far and the pages that were rendered. -/
structure Rendered where
  draft : Draft
  pages : List Page

/-- The page with its settings validated, and the notices of that. -/
def validated (page : Page) : Page × List Notice :=
  let (settings, notices) := page.settings.validate
  ({ page with settings := settings }, notices)

/-- Renders one page. -/
def renderPage (host : Host) (options : Options) (page : Page) (work : Rendered) :
    Option PublishError × Rendered :=
  let (page, notices) := validated page
  let draft := { work.draft with notices := work.draft.notices ++ notices }
  match (Markup.renderTree host.resultType page.component).runIn draft.context with
  | (.ok content, context) =>
    let file := ⟨Assembly.pagePath options (pageSlug page.name), .html, content⟩
    (none, {
      draft := { draft with context := context, files := draft.files ++ [file] }
      pages := work.pages ++ [page] })
  | (.error error, context) =>
    if error.isPageLocal then
      let notice := .pageDropped page.name error
      (none, { work with
        draft := { draft with context := context, notices := draft.notices ++ [notice] } })
    else (some error, { work with draft := { draft with context := context } })

/-- Renders pages in order. -/
def renderPages (host : Host) (options : Options) :
    List Page → Rendered → Option PublishError × Rendered
  | [], work => (none, work)
  | page :: pages, work =>
    match renderPage host options page work with
    | (none, next) => renderPages host options pages next
    | (some error, next) => (some error, next)

end Publisher

open Publisher in
/-- Publishes pages in a context. The draft holds what was done, also when an error ended it. -/
def publishPages (host : Host) (options : Options) (pages : List Page) (context : Context) :
    Option PublishError × Draft :=
  match renderPages host options pages ⟨⟨context, [], []⟩, []⟩ with
  | (some error, work) => (some error, work.draft)
  | (none, work) =>
    if options.enabled then Assembly.assemble host options work.pages work.draft
    else (none, work.draft)

/-- What a pass made: its files and its notices. -/
structure Publication where
  files : List PublishedFile
  notices : List Notice
deriving DecidableEq, Repr

/-- The release of a publication. -/
def Publication.release (p : Publication) : Release :=
  ⟨p.files, p.notices.map Notice.notification⟩

/-- Publishes a site in a context. -/
def Site.publishIn (site : Site) (options : Options) (context : Context) :
    Except PublishError Publication × Context :=
  match publishPages site.host options site.pages context with
  | (none, draft) => (.ok ⟨draft.files, draft.notices⟩, draft.context)
  | (some error, draft) => (.error error, draft.context)

/-- The block that prints a stored expression for an element with an id. -/
def compileExpression (options : Options) (text elementId : String) :
    Except PublishError String :=
  match Expression.read text with
  | .error error => .error (.malformed error)
  | .ok expression =>
    let element : Element := { id := elementId }
    let step := (Block.echo element expression).mapError PublishError.expression
    (step.runIn (Context.start options 0 [])).1

end PagePress
