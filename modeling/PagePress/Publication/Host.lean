import PagePress.Site.Typing

/-!
# Hosts

What a publisher asks of the program that holds the site: the result types of expressions, the
fields that can be queried, data sources by id, and the queries of a page by data source.
-/

namespace PagePress

/-- The answers that a publisher needs. -/
structure Host where
  resultType : Block.ResultType
  queryableFields : List Field
  dataSource : String → Option DataSource
  pageQuery : Page → OrderedMap String

/-- A site document as a host. Its result types do not depend on where an expression stands. -/
def Site.host (site : Site) : Host where
  resultType := fun expression _ => site.resultType expression
  queryableFields := site.queryableFields
  dataSource := site.dataSource?
  pageQuery := site.pageQuery

end PagePress
