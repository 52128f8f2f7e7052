import PagePress.DataSource
import PagePress.Error
import PagePress.Json.Printer
import PagePress.LineBuffer
import PagePress.Pass
import PagePress.Text.Lines

/-!
# Data files

A data file is a script module that sends the queries of a page and resolves to their results by
data source. Each request stands in a block of its own that reports a failure and passes it on.
Queries and addresses are template literals, ids, methods and header names are string literals.

## Main results

* `fetchSource_other` — a source that does not understand queries gets no request.
-/

namespace PagePress

namespace DataFile

/-! ## Addresses -/

/-- The number that makes an address unique, if it is to be. -/
def busterNumber? {ε : Type} : CacheBuster → Pass ε (Option UInt32)
  | .none => return none
  | .build => return some (← get).buildId
  | .random => return some (← drawSalt)

/-- An address with a number as its last parameter. -/
def withParameter (url : String) (number : UInt32) : String :=
  let separator := if url.toList.contains '?' then "&" else "?"
  url ++ separator ++ "cache_buster=" ++ toString number.toNat

/-- An address made unique. -/
def bustedUrl {ε : Type} (buster : CacheBuster) (url : String) : Pass ε String := do
  match ← busterNumber? buster with
  | some number => return withParameter url number
  | none => return url

/-! ## Requests -/

/-- A request for data. -/
structure Request where
  sourceId : String
  url : String
  method : String
  headers : List (String × String)
  query : String
deriving DecidableEq, Repr

/-- Whether a header says what the content is. -/
def isContentType (name : String) : Bool :=
  name.map Char.toLower = "content-type"

/-- Headers that say what the content is: JSON unless they say so themselves. -/
def requestHeaders (headers : Option (OrderedMap String)) : List (String × String) :=
  let headers := headers.getD .empty
  if headers.keys.any isContentType then headers.entries
  else (headers.insert "content-type" "application/json").entries

/-- The request that sends a query to a data source under an address. -/
def Request.ofSource (source : DataSource) (url query : String) : Request :=
  let transport := source.transport
  { sourceId := source.id
    url := url
    method := if transport.method.isEmpty then "POST" else transport.method
    headers := requestHeaders transport.headers
    query := query }

/-! ## Source of a request -/

/-- A text between backticks. -/
def template (text : String) : String := "`" ++ text ++ "`"

/-- The line of a header. Its value is a template as it stands, so that it can read the
environment of the build. -/
def headerLine (header : String × String) : String :=
  Text.singleQuoted header.1 ++ ": " ++ template header.2 ++ ","

/-- The headers, method and body of a request. -/
def writeOptions (request : Request) (b : LineBuffer) : LineBuffer :=
  let b := b.block "headers: \x7b" (·.addLines (request.headers.map headerLine)) "\x7d,"
  let b := b.addLine ("method: " ++ Text.singleQuoted request.method ++ ",")
  b.block "body: JSON.stringify(\x7b"
    (·.addLine ("query: " ++ template (Text.escapeTemplate request.query) ++ ",")) "\x7d),"

/-- The call of the fetch plugin with its options. -/
def writePluginCall (plugin : OrderedMap Json.Value) (request : Request) (b : LineBuffer) :
    LineBuffer :=
  let options := (Json.ofMap Json.Value.json plugin).compact
  b.block ("const json = await EleventyFetch(" ++ template request.url ++ ", \x7b")
    (fun b =>
      let b := b.addLine ("..." ++ options ++ ",")
      let b := b.addLine "type: 'json',"
      b.block "fetchOptions: \x7b" (writeOptions request) "\x7d,")
    "\x7d)"

/-- The plain request and the check of its answer. -/
def writePlainCall (request : Request) (b : LineBuffer) : LineBuffer :=
  let b := b.block ("const response = await fetch(" ++ template request.url ++ ", \x7b")
    (writeOptions request) "\x7d)"
  let b := b.block "if (!response.ok) \x7b"
    (·.addLine
      "throw new Error(`HTTP error $\x7bresponse.status\x7d: $\x7bresponse.statusText\x7d`)")
    "\x7d"
  b.addLine "const json = await response.json()"

/-- The source of a request. -/
def requestText (plugin : Option (OrderedMap Json.Value)) (request : Request) : String :=
  let id := Text.singleQuoted request.sourceId
  let call := match plugin with
    | some plugin => writePluginCall plugin request
    | none => writePlainCall request
  let b := LineBuffer.new.addLine "try \x7b"
  let b := b.indented fun b => (call b).addLine ("result[" ++ id ++ "] = json.data")
  let b := b.block "\x7d catch (e) \x7b"
    (fun b =>
      let b := b.addLine ("console.error('Error fetching graphql data', e, " ++ id ++ ", " ++
        Text.singleQuoted request.url ++ ")")
      b.addLine "throw e")
    "\x7d"
  b.text

/-- The source of the request that sends a query to a data source; nothing for a source that does
not understand queries. -/
def fetchSource {ε : Type} (options : Options) (source : DataSource) (query : String) :
    Pass ε String :=
  match source.kind with
  | .other => pure ""
  | .graphql => do
    let url ← bustedUrl options.cacheBuster source.transport.url
    return requestText options.fetchPlugin (Request.ofSource source url query)

theorem fetchSource_other {ε : Type} (options : Options) {source : DataSource} (query : String)
    (h : source.kind = .other) : fetchSource (ε := ε) options source query = pure "" := by
  simp [fetchSource, h]

/-! ## The module -/

/-- The source of every request of a page, in order. -/
def fetchAll (options : Options) (dataSource : String → Option DataSource) :
    List (String × String) → Pass PublishError (List String)
  | [] => return []
  | (id, query) :: rest => do
    match dataSource id with
    | none => throw (.unknownDataSource id)
    | some source =>
      let fetch ← fetchSource options source query
      let fetches ← fetchAll options dataSource rest
      return fetch :: fetches

/-- The module around the sources of requests. -/
def moduleText (usesPlugin : Bool) (fetches : List String) : String :=
  let b := LineBuffer.new
  let b :=
    if usesPlugin then b.addLine "const EleventyFetch = require('@11ty/eleventy-fetch')" else b
  let b := b.block "module.exports = async function () \x7b"
    (fun b =>
      let b := b.addLine "const result = \x7b\x7d"
      let b := b.addLines (fetches.flatMap Text.lines)
      b.addLine "return result")
    "\x7d"
  b.text

end DataFile

/-- The data file that sends queries, given by data source id. -/
def dataFile (options : Options) (dataSource : String → Option DataSource)
    (query : OrderedMap String) : Pass PublishError String := do
  let fetches ← DataFile.fetchAll options dataSource query.entries
  return DataFile.moduleText options.fetchPlugin.isSome fetches

end PagePress
