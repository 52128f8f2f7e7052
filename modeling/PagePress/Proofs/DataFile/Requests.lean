import PagePress.DataFile
import PagePress.Proofs.DataFile.Pieces
import PagePress.Proofs.Steps

/-!
# Requests of a data file

The source of a request as lines of pieces. With and without the fetch plugin the same lines say
what is sent. Three kinds of text are inserted as they are: the address that is called, the values
of headers, which may read the environment of the build, and the options of the plugin. All others
are in literals: data source ids, names of headers, the method and the address that a failure
reports between quotes, and the query in a template. None of them gets out of its literal.

## Main results

* `requestText_eq` — the source of a request by its lines.
* `literals_requestLines` — which texts are in literals.
* `fetchSource_literals` — each of them is read back.
-/

namespace PagePress.DataFile

open Script

/-! ## The lines of a request -/

/-- The line of a header. -/
def namedLine (header : String × String) : Line :=
  ⟨0, [.literal .quoted header.1, .fixed ": \x60", .inserted header.2, .fixed "\x60,"]⟩

/-- The line of a method. -/
def methodLine (method : String) : Line :=
  ⟨0, [.fixed "method: ", .literal .quoted method, .fixed ","]⟩

/-- The line of a query. -/
def queryLine (query : String) : Line :=
  ⟨0, [.fixed "query: ", .literal .template query, .fixed ","]⟩

/-- The lines that say what is sent: the headers, the method and the body. -/
def optionLines (request : Request) : List Line :=
  block (.fixed "headers: \x7b") (request.headers.map namedLine) "\x7d," ++
    methodLine request.method ::
      block (.fixed "body: JSON.stringify(\x7b") [queryLine request.query] "\x7d),"

/-- The line of a call with an address. -/
def callLine (start url : String) : Line :=
  ⟨0, [.fixed start, .inserted url, .fixed "\x60, \x7b"]⟩

/-- The lines of the call of the fetch plugin with its options. -/
def pluginLines (plugin : OrderedMap Json.Value) (request : Request) : List Line :=
  block (callLine "const json = await EleventyFetch(\x60" request.url)
    (⟨0, [.fixed "...", .inserted (Json.ofMap Json.Value.json plugin).compact, .fixed ","]⟩ ::
      .fixed "type: 'json'," ::
      block (.fixed "fetchOptions: \x7b") (optionLines request) "\x7d,")
    "\x7d)"

/-- The lines of the plain request and of the check of its answer. -/
def plainLines (request : Request) : List Line :=
  block (callLine "const response = await fetch(\x60" request.url) (optionLines request) "\x7d)" ++
    block (.fixed "if (!response.ok) \x7b") [.fixed
      "throw new Error(\x60HTTP error $\x7bresponse.status\x7d: $\x7bresponse.statusText\x7d\x60)"]
      "\x7d" ++
    [.fixed "const json = await response.json()"]

/-- The lines of the call that sends a request. -/
def callLines (plugin : Option (OrderedMap Json.Value)) (request : Request) : List Line :=
  match plugin with
  | some plugin => pluginLines plugin request
  | none => plainLines request

/-- The line that takes the result of a request. -/
def resultLine (id : String) : Line :=
  ⟨0, [.fixed "result[", .literal .quoted id, .fixed "] = json.data"]⟩

/-- The line that reports a failure. -/
def reportLine (id url : String) : Line :=
  ⟨0, [.fixed "console.error('Error fetching graphql data', e, ", .literal .quoted id,
    .fixed ", ", .literal .quoted url, .fixed ")"]⟩

/-- The lines that report a failure and pass it on. -/
def failureLines (id url : String) : List Line :=
  block (.fixed "\x7d catch (e) \x7b") [reportLine id url, .fixed "throw e"] "\x7d"

/-- The lines of a request. -/
def requestLines (plugin : Option (OrderedMap Json.Value)) (request : Request) : List Line :=
  .fixed "try \x7b" ::
    ((callLines plugin request ++ [resultLine request.sourceId]).map (Line.deeper 1) ++
      failureLines request.sourceId request.url)

/-! ## The lines are the source -/

theorem write_template (text : String) :
    Literal.template.write text = template (Text.escapeTemplate text) := by
  rw [← String.toList_inj, Literal.toList_write]
  simp [template, Text.escapeTemplate, Literal.escape, Literal.delimiter, String.toList_append]

theorem entry_namedLine (header : String × String) :
    (namedLine header).entry = (0, headerLine header) := by
  have hText : written (namedLine header).pieces = headerLine header := by
    rw [← String.toList_inj]
    simp [namedLine, headerLine, template, Piece.write, Literal.write_quoted, String.toList_append]
  rw [Line.entry, hText, namedLine]

theorem entry_callLine (start url : String) :
    (callLine (start ++ "\x60") url).entry = (0, start ++ template url ++ ", \x7b") := by
  have hText : written (callLine (start ++ "\x60") url).pieces =
      start ++ template url ++ ", \x7b" := by
    rw [← String.toList_inj]
    simp [callLine, template, Piece.write, String.toList_append]
  rw [Line.entry, hText, callLine]

theorem prints_headers (headers : List (String × String)) :
    Prints (·.addLines (headers.map headerLine)) (headers.map namedLine) := by
  have hEntries : (headers.map namedLine).map Line.entry =
      (headers.map headerLine).map fun text => (0, text) := by
    simp only [List.map_map, Function.comp_def, entry_namedLine]
  rw [Prints, hEntries]
  exact LineBuffer.Writes.addLines _

theorem prints_writeOptions (request : Request) :
    Prints (writeOptions request) (optionLines request) := by
  have hMethod : (methodLine request.method).entry =
      (0, "method: " ++ Text.singleQuoted request.method ++ ",") := by
    simp [Line.entry, methodLine, Piece.write, Literal.write_quoted, String.append_assoc]
  have hQuery : (queryLine request.query).entry =
      (0, "query: " ++ template (Text.escapeTemplate request.query) ++ ",") := by
    simp [Line.entry, queryLine, Piece.write, write_template, String.append_assoc]
  have hHeaders := Prints.block (Line.entry_fixed "headers: \x7b") (prints_headers request.headers)
    "\x7d,"
  have hBody := Prints.block (Line.entry_fixed "body: JSON.stringify(\x7b") (.addLine hQuery)
    "\x7d),"
  have hAll := (hHeaders.andThen (.addLine hMethod)).andThen hBody
  rw [List.append_assoc] at hAll
  exact hAll

theorem prints_writePluginCall (plugin : OrderedMap Json.Value) (request : Request) :
    Prints (writePluginCall plugin request) (pluginLines plugin request) := by
  have hOptions : Line.entry ⟨0, [.fixed "...",
      .inserted (Json.ofMap Json.Value.json plugin).compact, .fixed ","]⟩ =
      (0, "..." ++ (Json.ofMap Json.Value.json plugin).compact ++ ",") := by
    simp [Line.entry, Piece.write, String.append_assoc]
  have hFetch := Prints.block (Line.entry_fixed "fetchOptions: \x7b") (prints_writeOptions request)
    "\x7d,"
  have hBody := ((Prints.addLine hOptions).andThen
    (.addLine (Line.entry_fixed "type: 'json',"))).andThen hFetch
  exact Prints.block (entry_callLine "const json = await EleventyFetch(" request.url) hBody "\x7d)"

theorem prints_writePlainCall (request : Request) :
    Prints (writePlainCall request) (plainLines request) := by
  have hCall := Prints.block (entry_callLine "const response = await fetch(" request.url)
    (prints_writeOptions request) "\x7d)"
  have hCheck := Prints.block (Line.entry_fixed "if (!response.ok) \x7b")
    (.addLine (Line.entry_fixed
    "throw new Error(\x60HTTP error $\x7bresponse.status\x7d: $\x7bresponse.statusText\x7d\x60)"))
    "\x7d"
  exact (hCall.andThen hCheck).andThen
    (.addLine (Line.entry_fixed "const json = await response.json()"))

theorem prints_call (plugin : Option (OrderedMap Json.Value)) (request : Request) :
    Prints (match plugin with
      | some plugin => writePluginCall plugin request
      | none => writePlainCall request) (callLines plugin request) := by
  cases plugin with
  | none => exact prints_writePlainCall request
  | some plugin => exact prints_writePluginCall plugin request

theorem prints_failure (id url : String) :
    Prints (·.block "\x7d catch (e) \x7b" (fun b =>
        (b.addLine ("console.error('Error fetching graphql data', e, " ++ Text.singleQuoted id ++
          ", " ++ Text.singleQuoted url ++ ")")).addLine "throw e") "\x7d")
      (failureLines id url) := by
  have hReport : (reportLine id url).entry =
      (0, "console.error('Error fetching graphql data', e, " ++ Text.singleQuoted id ++ ", " ++
        Text.singleQuoted url ++ ")") := by
    simp [Line.entry, reportLine, Piece.write, Literal.write_quoted, String.append_assoc]
  exact Prints.block (Line.entry_fixed "\x7d catch (e) \x7b")
    ((Prints.addLine hReport).andThen (.addLine (Line.entry_fixed "throw e"))) "\x7d"

/-- The source of a request, piece by piece. -/
theorem requestText_eq (plugin : Option (OrderedMap Json.Value)) (request : Request) :
    requestText plugin request = written (parts (requestLines plugin request)) := by
  have hResult : (resultLine request.sourceId).entry =
      (0, "result[" ++ Text.singleQuoted request.sourceId ++ "] = json.data") := by
    simp [Line.entry, resultLine, Piece.write, Literal.write_quoted, String.append_assoc]
  have hTry := (Prints.addLine (Line.entry_fixed "try \x7b")).andThen
    ((prints_call plugin request).andThen (.addLine hResult)).indented
  have hText := LineBuffer.Writes.text_new
    (hTry.andThen (prints_failure request.sourceId request.url))
  rw [layout_eq_written] at hText
  rw [requestLines, ← List.cons_append, ← List.singleton_append]
  exact hText

/-! ## The literals of a request -/

/-- The texts of a request that are in literals, in order. -/
theorem literals_requestLines (plugin : Option (OrderedMap Json.Value)) (request : Request) :
    literals (parts (requestLines plugin request)) =
      request.headers.map (fun header => (.quoted, header.1)) ++
        [(.quoted, request.method), (.template, request.query), (.quoted, request.sourceId),
          (.quoted, request.sourceId), (.quoted, request.url)] := by
  have hHeaders : literals (parts (request.headers.map namedLine)) =
      request.headers.map fun header => (.quoted, header.1) := by
    rw [literals_parts]
    induction request.headers with
    | nil => rfl
    | cons header rest ih =>
        rw [List.map_cons, List.flatMap_cons, List.map_cons, ih]
        rfl
  have hOptions : literals (parts (optionLines request)) =
      request.headers.map (fun header => (.quoted, header.1)) ++
        [(.quoted, request.method), (.template, request.query)] := by
    rw [optionLines, literals_parts_append, literals_parts_block, hHeaders]
    rfl
  have hCall : literals (parts (callLines plugin request)) =
      literals (parts (optionLines request)) := by
    cases plugin with
    | none =>
        rw [callLines, plainLines, literals_parts_append, literals_parts_append,
          literals_parts_block, literals_parts_block]
        simp [callLine, Line.fixed, parts, Line.parts]
    | some plugin =>
        rw [callLines, pluginLines, literals_parts_block, literals_parts_cons, literals_parts_cons,
          literals_parts_block]
        rfl
  rw [requestLines, literals_parts_cons, literals_parts_append, literals_parts_deeper,
    literals_parts_append, hCall, hOptions, failureLines, literals_parts_block]
  simp [parts, Line.parts, Line.fixed, resultLine, reportLine]

/-! ## Running requests -/

/-- An address as it is, or with a parameter that makes it unique. -/
def IsBusted (url sent : String) : Prop := sent = url ∨ ∃ number, sent = withParameter url number

theorem bustedUrl_run {ε : Type} (buster : CacheBuster) (url : String) (context : Context) :
    ∃ sent next, (bustedUrl (ε := ε) buster url).runIn context = (.ok sent, next) ∧
      IsBusted url sent := by
  cases buster with
  | none => exact ⟨url, context, rfl, .inl rfl⟩
  | build => exact ⟨_, context, rfl, .inr ⟨context.buildId, rfl⟩⟩
  | random =>
      have hSalt : ∃ number next, (drawSalt (ε := ε)).runIn context = (.ok number, next) := by
        simp only [drawSalt, Pass.runIn_bind, Pass.runIn_get]
        cases context.salts with
        | nil => exact ⟨_, _, rfl⟩
        | cons salt salts => exact ⟨_, _, rfl⟩
      obtain ⟨number, next, hRun⟩ := hSalt
      refine ⟨withParameter url number, next, ?_, .inr ⟨number, rfl⟩⟩
      simp only [bustedUrl, busterNumber?, Pass.runIn_bind, hRun]
      rfl

theorem fetchSource_graphql {ε : Type} {options : Options} {source : DataSource} {url : String}
    {context next : Context} (hKind : source.kind = .graphql)
    (hUrl : (bustedUrl (ε := ε) options.cacheBuster source.transport.url).runIn context =
      (.ok url, next)) (query : String) :
    (fetchSource (ε := ε) options source query).runIn context =
      (.ok (requestText options.fetchPlugin (Request.ofSource source url query)), next) := by
  simp only [fetchSource, hKind, Pass.runIn_bind_of_ok hUrl]
  rfl

/-- The source of a request: nothing, or that of a request to the address of the data source. -/
theorem fetchSource_eq_ok {ε : Type} {options : Options} {source : DataSource}
    {query fetch : String} {context next : Context}
    (hRun : (fetchSource (ε := ε) options source query).runIn context = (.ok fetch, next)) :
    match source.kind with
    | .other => fetch = ""
    | .graphql => ∃ url, IsBusted source.transport.url url ∧
        fetch = requestText options.fetchPlugin (Request.ofSource source url query) := by
  cases hKind : source.kind with
  | other =>
      rw [fetchSource_other options query hKind] at hRun
      exact (Except.ok.inj (congrArg Prod.fst hRun)).symm
  | graphql =>
      obtain ⟨url, after, hUrl, hBusted⟩ :=
        bustedUrl_run (ε := ε) options.cacheBuster source.transport.url context
      rw [fetchSource_graphql hKind hUrl] at hRun
      exact ⟨url, hBusted, (Except.ok.inj (congrArg Prod.fst hRun)).symm⟩

/-- The literals of a request. The names of its headers, its method, the data source id, twice, and
the address that a failure reports are in string literals, and the query is in a template literal.
Each literal is read as its text, and what is left is the source behind it. -/
theorem fetchSource_literals (options : Options) {source : DataSource}
    (hKind : source.kind = .graphql) (query : String) (context : Context) :
    ∃ url code next,
      (bustedUrl (ε := PublishError) options.cacheBuster source.transport.url).runIn context =
          (.ok url, next) ∧
        (fetchSource (ε := PublishError) options source query).runIn context = (.ok code, next) ∧
        ∃ pieces,
          pieces = parts (requestLines options.fetchPlugin (Request.ofSource source url query)) ∧
          code = written pieces ∧
          literals pieces =
            (requestHeaders source.transport.headers).map (fun header => (.quoted, header.1)) ++
              [(.quoted, (Request.ofSource source url query).method), (.template, query),
                (.quoted, source.id), (.quoted, source.id), (.quoted, url)] ∧
          ∀ before kind text after, pieces = before ++ .literal kind text :: after →
            ∃ tail, code.toList = (written before).toList ++ kind.delimiter :: tail ∧
              kind.read tail = some (text.toList, (written after).toList) := by
  obtain ⟨url, next, hUrl, -⟩ :=
    bustedUrl_run (ε := PublishError) options.cacheBuster source.transport.url context
  refine ⟨url, _, next, hUrl, fetchSource_graphql hKind hUrl query, _, rfl, requestText_eq _ _,
    literals_requestLines _ _, ?_⟩
  intro before kind text after hSplit
  rw [requestText_eq, hSplit]
  exact read_written before after kind text

/-- A data source with quotes and backslashes wherever they can be. -/
def quotedSource : DataSource where
  id := "it's\\"
  url := "/a'b"
  method := "GE'T"
  headers := some (.ofList [("X-'k'", "v")])

/-- A query with backslashes, delimiters and starts of substitutions. -/
def quotedQuery : String := "\\\x60$\x7bx\x7d\\$\x7b\n\x60"

/-- The texts of a request are read back, whatever delimiters they hold. -/
theorem quotedSource_literals :
    quotedSource.kind = .graphql ∧
      ∃ code next,
        (fetchSource (ε := PublishError) { cacheBuster := .none } quotedSource quotedQuery).runIn
            (Context.start {} 0 []) = (.ok code, next) ∧
        ∀ kind text, (kind, text) ∈ [(Literal.quoted, "X-'k'"), (.quoted, "content-type"),
            (.quoted, "GE'T"), (.template, quotedQuery), (.quoted, "it's\\"), (.quoted, "/a'b")] →
          ∃ before tail rest, code.toList = before ++ kind.delimiter :: tail ∧
            kind.read tail = some (text.toList, rest) := by
  refine ⟨rfl, ?_⟩
  obtain ⟨url, code, next, hUrl, hRun, pieces, -, -, hLiterals, hRead⟩ :=
    fetchSource_literals { cacheBuster := .none } (show quotedSource.kind = .graphql from rfl)
      quotedQuery (Context.start {} 0 [])
  obtain rfl : "/a'b" = url := Except.ok.inj (congrArg Prod.fst hUrl)
  refine ⟨code, next, hRun, fun kind text hText => ?_⟩
  have hHeaders : requestHeaders quotedSource.transport.headers =
      [("X-'k'", "v"), ("content-type", "application/json")] := by decide +kernel
  have hPiece : (kind, text) ∈ literals pieces := by
    rw [hLiterals, hHeaders]
    simpa [or_assoc, Request.ofSource, quotedSource, DataSource.transport] using hText
  obtain ⟨before, after, hSplit⟩ := List.append_of_mem (mem_literals_iff.1 hPiece)
  obtain ⟨tail, hCode, hBack⟩ := hRead before kind text after hSplit
  exact ⟨_, tail, _, hCode, hBack⟩

end PagePress.DataFile
