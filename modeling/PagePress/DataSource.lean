import PagePress.Json.Decode

/-!
# Data sources

Where the data of a site comes from, and how a query is sent there. A source may name a second
transport for requests from the build server; that one is used when a site is built.
-/

namespace PagePress

open Json

/-- What a data source understands. -/
inductive SourceKind where
  | graphql
  | other
deriving DecidableEq, Repr, Inhabited

/-- The name of a kind of data source. -/
def SourceKind.name : SourceKind → String
  | .graphql => "graphql"
  | .other => "other"

/-- The kind of a name; every unknown name is of the other kind. -/
def SourceKind.named (name : String) : SourceKind :=
  if name = "graphql" then .graphql else .other

/-- How a query is sent. -/
structure Transport where
  url : String := ""
  method : String := ""
  headers : Option (OrderedMap String) := none

instance : Inhabited Transport := ⟨{}⟩

/-- A source of data. -/
structure DataSource where
  id : String := ""
  kind : SourceKind := .graphql
  url : String := ""
  method : String := ""
  headers : Option (OrderedMap String) := none
  /-- How the build server sends queries, when it does so in its own way. -/
  serverToServer : Option Transport := none

instance : Inhabited DataSource := ⟨{}⟩

/-- How a query is sent when a site is built. -/
def DataSource.transport (source : DataSource) : Transport :=
  source.serverToServer.getD ⟨source.url, source.method, source.headers⟩

/-! ## Stored data sources -/

/-- Headers as JSON. -/
def Json.ofHeaders : Option (OrderedMap String) → Json := ofOption (ofMap Json.string)

/-- Stored headers. -/
def Json.asHeaders : Json → Except Json.Error (Option (OrderedMap String)) :=
  asOption (asMap asString)

/-- The fields of a transport. -/
def Transport.fieldNames : List String := ["url", "method", "headers"]

/-- A transport as JSON. -/
def Transport.toJson (t : Transport) : Json :=
  ofFields
    [("url", some (.string t.url)),
     ("method", some (.string t.method)),
     ("headers", some (ofHeaders t.headers))]

/-- A stored transport. -/
def Transport.ofJson (json : Json) : Except Json.Error Transport := do
  let record ← asRecord Transport.fieldNames json
  return {
    url := ← record.optional "url" "" asString
    method := ← record.optional "method" "" asString
    headers := ← record.optional "headers" none asHeaders }

/-- The fields of a data source. -/
def DataSource.fieldNames : List String :=
  ["id", "type", "url", "method", "headers", "serverToServer"]

/-- A data source as JSON. -/
def DataSource.toJson (d : DataSource) : Json :=
  ofFields
    [("id", some (.string d.id)),
     ("type", some (.string d.kind.name)),
     ("url", some (.string d.url)),
     ("method", some (.string d.method)),
     ("headers", some (ofHeaders d.headers)),
     ("serverToServer", some (ofOption Transport.toJson d.serverToServer))]

/-- A stored data source. -/
def DataSource.ofJson (json : Json) : Except Json.Error DataSource := do
  let record ← asRecord DataSource.fieldNames json
  return {
    id := ← record.optional "id" "" asString
    kind := ← record.optional "type" .graphql (asChoice fun name => some (SourceKind.named name))
    url := ← record.optional "url" "" asString
    method := ← record.optional "method" "" asString
    headers := ← record.optional "headers" none asHeaders
    serverToServer := ← record.optional "serverToServer" none (asOption Transport.ofJson) }

end PagePress
