import PagePress.Proofs.DataFile.Requests

/-!
# Two ways to call

A request is called plainly or through the fetch plugin. The two calls differ in the lines around
what is sent, and in how deep it stands. What is sent, the address, the line that takes the result
and the report of a failure are the same lines. They come from one transport: that of the build
server when the data source has one, else the one of the data source itself.

## Main results

* `requestHeaders_eq` — a header that says what the content is comes last, unless there is one.
* `fetchSource_flavours` — the lines of a request, called in either way.
-/

namespace PagePress.DataFile

open Script

/-! ## What a transport asks for -/

/-- Two names that differ at most in the case of ASCII letters. -/
def SameUpToCase (first second : String) : Prop :=
  first.toList.map Char.toLower = second.toList.map Char.toLower

instance (first second : String) : Decidable (SameUpToCase first second) :=
  inferInstanceAs (Decidable (_ = _))

theorem isContentType_iff (name : String) :
    isContentType name = true ↔ SameUpToCase name "content-type" := by
  have hLower : "content-type".toList.map Char.toLower = "content-type".toList := by decide
  rw [isContentType, decide_eq_true_iff, ← String.toList_inj, String.toList_map, SameUpToCase,
    hLower]

/-- The headers of a transport, in order. -/
def givenHeaders (transport : Transport) : List (String × String) :=
  (transport.headers.getD .empty).entries

theorem requestHeaders_eq (transport : Transport) :
    requestHeaders transport.headers = givenHeaders transport ++
      if ∃ header ∈ givenHeaders transport, SameUpToCase header.1 "content-type" then []
      else [("content-type", "application/json")] := by
  have hAny : (transport.headers.getD .empty).keys.any isContentType = true ↔
      ∃ header ∈ givenHeaders transport, SameUpToCase header.1 "content-type" := by
    simp [OrderedMap.keys, givenHeaders, isContentType_iff]
  rw [requestHeaders]
  by_cases hGiven : ∃ header ∈ givenHeaders transport, SameUpToCase header.1 "content-type"
  · rw [if_pos (hAny.2 hGiven), if_pos hGiven, List.append_nil]
    rfl
  · rw [if_neg fun h => hGiven (hAny.1 h), if_neg hGiven]
    apply OrderedMap.keys_write_of_not_mem
    intro hKey
    obtain ⟨header, hHeader, hName⟩ := List.mem_map.1 hKey
    exact hGiven ⟨header, hHeader, by rw [hName]; rfl⟩

/-- The address that is called: when every build is to have one of its own, the number of the build
is its last parameter. -/
def calledUrl (buster : CacheBuster) (url : String) (buildId : UInt32) : String :=
  if buster = .build then
    url ++ (if '?' ∈ url.toList then "&" else "?") ++ "cache_buster=" ++ toString buildId.toNat
  else url

theorem bustedUrl_of_ne_random {ε : Type} {buster : CacheBuster} (hBuster : buster ≠ .random)
    (url : String) (context : Context) :
    (bustedUrl (ε := ε) buster url).runIn context =
      (.ok (calledUrl buster url context.buildId), context) := by
  cases buster with
  | none => rfl
  | build =>
      have hRun : (bustedUrl (ε := ε) .build url).runIn context =
          (.ok (withParameter url context.buildId), context) := rfl
      simp [hRun, withParameter, calledUrl]
  | random => exact absurd rfl hBuster

/-- A request carries what a transport asks for: its address, its method, which is POST when it is
empty, and its headers, with one that says what the content is. -/
structure Carries (request : Request) (transport : Transport) (buster : CacheBuster)
    (buildId : UInt32) : Prop where
  url : request.url = calledUrl buster transport.url buildId
  method : request.method = if transport.method = "" then "POST" else transport.method
  headers : request.headers = givenHeaders transport ++
    if ∃ header ∈ givenHeaders transport, SameUpToCase header.1 "content-type" then []
    else [("content-type", "application/json")]

theorem carries_ofSource (source : DataSource) (query : String) (buster : CacheBuster)
    (buildId : UInt32) :
    Carries (Request.ofSource source (calledUrl buster source.transport.url buildId) query)
      source.transport buster buildId where
  url := rfl
  method := by simp only [Request.ofSource, String.isEmpty_iff]
  headers := requestHeaders_eq source.transport

/-! ## The lines of a call -/

/-- The plain call around what is sent, and the check of its answer. -/
def plainCall (url : String) (sent : List Line) : List Line :=
  callLine "const response = await fetch(\x60" url :: sent.map (Line.deeper 1) ++
    [.fixed "\x7d)",
      .fixed "if (!response.ok) \x7b",
      ⟨1, [.fixed
        "throw new Error(\x60HTTP error $\x7bresponse.status\x7d: $\x7bresponse.statusText\x7d\x60)"
      ]⟩,
      .fixed "\x7d",
      .fixed "const json = await response.json()"]

/-- The call of the fetch plugin around what is sent. -/
def pluginCall (plugin : OrderedMap Json.Value) (url : String) (sent : List Line) : List Line :=
  [callLine "const json = await EleventyFetch(\x60" url,
      ⟨1, [.fixed "...", .inserted (Json.ofMap Json.Value.json plugin).compact, .fixed ","]⟩,
      ⟨1, [.fixed "type: 'json',"]⟩,
      ⟨1, [.fixed "fetchOptions: \x7b"]⟩] ++
    sent.map (Line.deeper 2) ++
    [⟨1, [.fixed "\x7d,"]⟩, .fixed "\x7d)"]

/-- The lines of a call, of taking its result and of reporting a failure. -/
def attempt (call : List Line) (id url : String) : List Line :=
  .fixed "try \x7b" ::
    ((call ++ [resultLine id]).map (Line.deeper 1) ++ failureLines id url)

theorem plainLines_eq (request : Request) :
    plainLines request = plainCall request.url (optionLines request) := by
  simp [plainLines, plainCall, block, Line.fixed, Line.deeper]

theorem pluginLines_eq (plugin : OrderedMap Json.Value) (request : Request) :
    pluginLines plugin request = pluginCall plugin request.url (optionLines request) := by
  simp [pluginLines, pluginCall, block, Line.fixed, Line.deeper, Function.comp_def]

/-! ## Running requests -/

/-- A request to a data source, called with the fetch plugin and without it. The two sources are the
same lines around two calls, and both calls have the same address and send the same lines: headers,
method and body. What they send is what the transport of the build server asks for, when there is
one, and what the data source asks for itself otherwise. -/
theorem fetchSource_flavours {options : Options} (hBuster : options.cacheBuster ≠ .random)
    {source : DataSource} (hKind : source.kind = .graphql) (query : String) (context : Context) :
    ∃ request : Request,
      request.sourceId = source.id ∧ request.query = query ∧
      (match source.serverToServer with
        | some own => Carries request own options.cacheBuster context.buildId
        | none => Carries request ⟨source.url, source.method, source.headers⟩ options.cacheBuster
            context.buildId) ∧
      (fetchSource (ε := PublishError) { options with fetchPlugin := none } source query).runIn
          context =
        (.ok (written (parts (attempt (plainCall request.url (optionLines request))
          source.id request.url))), context) ∧
      ∀ plugin, (fetchSource (ε := PublishError) { options with fetchPlugin := some plugin } source
          query).runIn context =
        (.ok (written (parts (attempt (pluginCall plugin request.url (optionLines request))
          source.id request.url))), context) := by
  have hUrl := bustedUrl_of_ne_random (ε := PublishError) hBuster source.transport.url context
  have hCarries := carries_ofSource source query options.cacheBuster context.buildId
  generalize calledUrl options.cacheBuster source.transport.url context.buildId = url
    at hUrl hCarries
  have hRun : ∀ plugin, (fetchSource (ε := PublishError) { options with fetchPlugin := plugin }
      source query).runIn context =
        (.ok (written (parts (requestLines plugin (Request.ofSource source url query)))),
          context) := by
    intro plugin
    rw [← requestText_eq]
    exact @fetchSource_graphql _ { options with fetchPlugin := plugin } source url context context
      hKind hUrl query
  refine ⟨Request.ofSource source url query, rfl, rfl, ?_, ?_, fun plugin => ?_⟩
  · cases hOwn : source.serverToServer with
    | none =>
        rw [DataSource.transport, hOwn] at hCarries
        exact hCarries
    | some own =>
        rw [DataSource.transport, hOwn] at hCarries
        exact hCarries
  · rw [hRun none, ← plainLines_eq]
    rfl
  · rw [hRun (some plugin), ← pluginLines_eq]
    rfl

/-- A data source whose build server transport has no method, a parameter in its address and a
header that says what the content is. -/
def internalSource : DataSource where
  id := "cms"
  url := "https://public/graphql"
  method := "GET"
  headers := some (.ofList [("Accept", "*/*")])
  serverToServer := some
    { url := "http://internal/graphql?v=1", headers := some (.ofList [("Content-Type", "text/x")]) }

/-- Both calls go to the build server transport alone, as a POST to an address that is unique for
the build, and no second header says what the content is. -/
theorem internalSource_flavours :
    ({ cacheBuster := .build } : Options).cacheBuster ≠ .random ∧ internalSource.kind = .graphql ∧
      ∃ request : Request,
        request = ⟨"cms", "http://internal/graphql?v=1&cache_buster=7", "POST",
            [("Content-Type", "text/x")], "\x7b a \x7d"⟩ ∧
          (fetchSource (ε := PublishError) { cacheBuster := .build } internalSource
              "\x7b a \x7d").runIn (Context.start {} 7 []) =
            (.ok (written (parts (attempt (plainCall request.url (optionLines request)) "cms"
              request.url))), Context.start {} 7 []) ∧
          (fetchSource (ε := PublishError) { cacheBuster := .build, fetchPlugin := some .empty }
              internalSource "\x7b a \x7d").runIn (Context.start {} 7 []) =
            (.ok (written (parts (attempt (pluginCall .empty request.url (optionLines request))
              "cms" request.url))), Context.start {} 7 []) := by
  have hBuster : ({ cacheBuster := .build } : Options).cacheBuster ≠ .random := by decide
  have hKind : internalSource.kind = .graphql := rfl
  obtain ⟨⟨id, url, method, headers, query⟩, hId, hQuery, hCarries, hPlain, hPlugin⟩ :=
    fetchSource_flavours hBuster hKind "\x7b a \x7d" (Context.start {} 7 [])
  obtain ⟨hUrl, hMethod, hHeaders⟩ : Carries ⟨id, url, method, headers, query⟩
      { url := "http://internal/graphql?v=1"
        headers := some (.ofList [("Content-Type", "text/x")]) }
      .build 7 := hCarries
  obtain rfl : id = "cms" := hId
  obtain rfl : query = "\x7b a \x7d" := hQuery
  obtain rfl : url = "http://internal/graphql?v=1&cache_buster=7" := hUrl.trans (by decide +kernel)
  obtain rfl : method = "POST" := hMethod
  obtain rfl : headers = [("Content-Type", "text/x")] := hHeaders.trans (by decide +kernel)
  exact ⟨hBuster, hKind, _, rfl, hPlain, hPlugin .empty⟩

end PagePress.DataFile
