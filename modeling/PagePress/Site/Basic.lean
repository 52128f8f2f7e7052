import PagePress.DataSource
import PagePress.Json.Reader
import PagePress.Page.Basic

/-!
# Site documents

A site in one document: its pages, its data sources, the queries of its pages by data source, and
the types that the data sources have.
-/

namespace PagePress

open Json

/-- A type of the data of a source. -/
structure TypeDefinition where
  id : String := ""
  dataSourceId : Option String := none
  fields : List Field := []

/-- A site in one document. -/
structure Site where
  pages : List Page := []
  dataSources : List DataSource := []
  /-- Queries by page name, then by data source id. -/
  queries : OrderedMap (OrderedMap String) := .empty
  types : List TypeDefinition := []

instance : Inhabited Site := ⟨{}⟩

namespace Site

/-! ## Looking things up -/

/-- The first component of a site with a persistent id. -/
def component? (site : Site) (persistentId : String) : Option Component :=
  site.pages.findSome? fun page => page.component.find? persistentId

/-- The first data source of a site with an id. -/
def dataSource? (site : Site) (id : String) : Option DataSource :=
  site.dataSources.find? fun source => source.id = id

/-- The queries of a page. -/
def pageQuery (site : Site) (page : Page) : OrderedMap String :=
  (site.queries.get? page.name).getD .empty

/-- The type that queries start from. -/
def rootType : String := "Query"

/-- The fields that can be queried, each with its data source, which is that of its type unless it
names another. -/
def queryableFields (site : Site) : List Field :=
  (site.types.filter fun type => type.id = rootType).flatMap fun type =>
    type.fields.map fun field =>
      { field with dataSourceId := field.dataSourceId.or type.dataSourceId }

/-! ## Stored sites -/

/-- The fields of a stored type. -/
def typeFieldNames : List String := ["id", "dataSourceId", "fields"]

/-- A stored type. -/
def typeOfJson (json : Json) : Except Json.Error TypeDefinition := do
  let record ← asRecord typeFieldNames json
  return {
    id := ← record.optional "id" "" asString
    dataSourceId := ← record.optional "dataSourceId" none (asOption asString)
    fields := ← record.optional "fields" [] (asList Field.ofJson) }

/-- The fields of a stored site. -/
def fieldNames : List String := ["pages", "dataSources", "queries", "types"]

/-- A stored site. -/
def ofJson (json : Json) : Except Json.Error Site := do
  let record ← asRecord fieldNames json
  return {
    pages := ← record.optional "pages" [] (asList Page.ofJson)
    dataSources := ← record.optional "dataSources" [] (asList DataSource.ofJson)
    queries := ← record.optional "queries" .empty (asMap (asMap asString))
    types := ← record.optional "types" [] (asList typeOfJson) }

/-- The site that a text holds. -/
def read (text : String) : Except Json.Error Site := do
  ofJson (← Json.read text)

end Site

end PagePress
