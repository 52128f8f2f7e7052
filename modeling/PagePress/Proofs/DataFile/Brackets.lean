import Mathlib.Algebra.BigOperators.Group.List.Basic
import Mathlib.Algebra.Ring.Int.Defs
import PagePress.Proofs.DataFile.Modules

/-!
# Brackets of a data file

A data file opens and closes brackets of its own, and each block that it opens it closes. The texts
that it was given come on top: each counts as often as it is written. Escaping adds no brackets,
neither does indentation, and a parameter of an address has none. So a data file is as balanced as
the texts that it was given are together.

## Main results

* `count_indentedText` — indentation keeps the number of every other character.
* `surplus_written_parts` — brackets of a script by the texts of its pieces.
* `surplus_requestText` — brackets of a request by the texts that it holds.
* `dataFile_surplus` — brackets of a data file by the texts that it was given.
-/

namespace PagePress

namespace Script

/-! ## Brackets of a text -/

/-- The pairs of brackets that a script has to balance. -/
def brackets : List (Char × Char) := [('{', '}'), ('(', ')')]

/-- The brackets of both pairs. -/
def bracketChars : List Char := brackets.flatMap fun pair => [pair.1, pair.2]

theorem forall_bracketChars {P : Char → Prop} (h : ∀ pair ∈ brackets, P pair.1 ∧ P pair.2) :
    ∀ c ∈ bracketChars, P c := by
  intro c hc
  obtain ⟨pair, hPair, hEnd⟩ := List.mem_flatMap.1 hc
  rcases List.mem_pair.1 hEnd with rfl | rfl
  · exact (h pair hPair).1
  · exact (h pair hPair).2

/-- How many brackets a text opens more than it closes. -/
def surplus (pair : Char × Char) (text : String) : Int :=
  text.toList.count pair.1 - text.toList.count pair.2

/-- A text opens as many brackets of each pair as it closes. -/
def IsBalanced (text : String) : Prop := ∀ pair ∈ brackets, surplus pair text = 0

instance (text : String) : Decidable (IsBalanced text) :=
  inferInstanceAs (Decidable (∀ pair ∈ brackets, surplus pair text = 0))

variable {pair : Char × Char}

theorem surplus_append (first second : String) :
    surplus pair (first ++ second) = surplus pair first + surplus pair second := by
  rw [surplus, surplus, surplus, String.toList_append, List.count_append, List.count_append]
  omega

theorem surplus_join (texts : List String) :
    surplus pair (String.join texts) = (texts.map (surplus pair)).sum := by
  induction texts with
  | nil => rfl
  | cons text rest ih => rw [String.join_cons, surplus_append, ih, List.map_cons, List.sum_cons]

/-- Texts with the same brackets have the same surplus. -/
theorem surplus_congr (hPair : pair ∈ brackets) {first second : String}
    (h : ∀ c ∈ bracketChars, first.toList.count c = second.toList.count c) :
    surplus pair first = surplus pair second := by
  have hEnds : ∀ c ∈ [pair.1, pair.2], c ∈ bracketChars := fun c hc =>
    List.mem_flatMap.2 ⟨pair, hPair, hc⟩
  rw [surplus, surplus, h _ (hEnds _ (by simp)), h _ (hEnds _ (by simp))]

theorem surplus_eq_zero (hPair : pair ∈ brackets) {text : String}
    (h : ∀ c ∈ text.toList, c ∉ bracketChars) : surplus pair text = 0 := by
  show surplus pair text = surplus pair ""
  exact surplus_congr hPair fun c hc => List.count_eq_zero.2 fun hMem => h c hMem hc

/-! ## Brackets of pieces and lines -/

/-- The text of a piece before it is written. -/
def Piece.content : Piece → String
  | fixed text => text
  | inserted text => text
  | literal _ text => text

/-- A piece is written with the brackets of its text. -/
theorem surplus_write (hPair : pair ∈ brackets) (piece : Piece) :
    surplus pair piece.write = surplus pair piece.content := by
  cases piece with
  | fixed text => rfl
  | inserted text => rfl
  | literal kind text =>
      refine surplus_congr hPair fun c hc => ?_
      have hBackslash : c ≠ '\\' := forall_bracketChars (P := (· ≠ '\\')) (by decide) c hc
      have hNot : c ≠ kind.delimiter :=
        forall_bracketChars (P := (· ≠ kind.delimiter)) (by cases kind <;> decide) c hc
      have hDelimiter : [kind.delimiter].count c = 0 :=
        List.count_eq_zero.2 fun hMem => hNot (List.mem_singleton.1 hMem)
      rw [Piece.write, Literal.toList_write, ← List.singleton_append, List.count_append,
        List.count_append, hDelimiter, kind.count_escape hBackslash, Nat.zero_add]
      rfl

/-- The surplus of a line, by the texts of its pieces. -/
def Line.surplus (pair : Char × Char) (line : Line) : Int :=
  (line.pieces.map fun piece => Script.surplus pair piece.content).sum

/-- The surplus of lines, by the texts of their pieces. -/
def linesSurplus (pair : Char × Char) (lines : List Line) : Int :=
  (lines.map (Line.surplus pair)).sum

theorem linesSurplus_cons (line : Line) (lines : List Line) :
    linesSurplus pair (line :: lines) = line.surplus pair + linesSurplus pair lines := by
  rw [linesSurplus, List.map_cons, List.sum_cons, linesSurplus]

theorem surplus_written (hPair : pair ∈ brackets) (pieces : List Piece) :
    surplus pair (written pieces) = (pieces.map fun piece => surplus pair piece.content).sum := by
  induction pieces with
  | nil => rfl
  | cons piece rest ih =>
      rw [written_cons, surplus_append, surplus_write hPair, ih, List.map_cons, List.sum_cons]

/-- The brackets of a script are those of the texts of its pieces. -/
theorem surplus_written_parts (hPair : pair ∈ brackets) (lines : List Line) :
    surplus pair (written (parts lines)) = linesSurplus pair lines := by
  have hBlanks : ∀ line : Line, surplus pair line.indentation = 0 := by
    intro line
    refine surplus_eq_zero hPair fun c hc => ?_
    rw [Line.indentation] at hc
    split at hc
    · cases hc
    · rw [LineBuffer.mem_repeated hc]
      decide
  have hFeed : surplus pair "\n" = 0 := (by decide : IsBalanced "\n") pair hPair
  induction lines with
  | nil => rfl
  | cons line rest ih =>
      have hLine : surplus pair (written line.parts) = line.surplus pair := by
        rw [surplus_written hPair]
        simp [Line.parts, Line.surplus, Piece.content, hBlanks, hFeed]
      rw [parts_cons, written_append, surplus_append, hLine, ih, linesSurplus_cons]

theorem linesSurplus_append (first second : List Line) :
    linesSurplus pair (first ++ second) = linesSurplus pair first + linesSurplus pair second := by
  rw [linesSurplus, List.map_append, List.sum_append, linesSurplus, linesSurplus]

/-- The brackets of lines do not depend on their depths. -/
theorem linesSurplus_deeper (steps : Nat) (lines : List Line) :
    linesSurplus pair (lines.map (Line.deeper steps)) = linesSurplus pair lines := by
  rw [linesSurplus, List.map_map, linesSurplus]
  rfl

theorem surplus_fixed (text : String) : (Line.fixed text).surplus pair = surplus pair text := by
  simp [Line.surplus, Line.fixed, Piece.content]

theorem linesSurplus_fixed (text : String) :
    linesSurplus pair [.fixed text] = surplus pair text := by
  rw [linesSurplus_cons, surplus_fixed]
  exact add_zero _

theorem linesSurplus_balanced (hPair : pair ∈ brackets) {text : String} (h : IsBalanced text) :
    linesSurplus pair [.fixed text] = 0 := by
  rw [linesSurplus_fixed, h pair hPair]

theorem linesSurplus_block (opening : Line) (body : List Line) (closing : String) :
    linesSurplus pair (block opening body closing) =
      opening.surplus pair + surplus pair closing + linesSurplus pair body := by
  rw [block, linesSurplus_cons, linesSurplus_append, linesSurplus_deeper, linesSurplus_fixed,
    add_comm (linesSurplus pair body), add_assoc]

/-- A block that closes what it opens has the brackets of its lines. -/
theorem linesSurplus_closed (hPair : pair ∈ brackets) {opening closing : String}
    (hClosed : IsBalanced (opening ++ closing)) (body : List Line) :
    linesSurplus pair (block (.fixed opening) body closing) = linesSurplus pair body := by
  rw [linesSurplus_block, surplus_fixed, ← surplus_append, hClosed pair hPair, zero_add]

end Script

namespace DataFile

open Script

/-! ## Indentation -/

/-- Indentation keeps the number of every character but blanks and line ends. -/
theorem count_indentedText {c : Char} (h : c ≠ '\n' ∧ c ≠ '\r' ∧ c ≠ ' ') (text : String) :
    (indentedText text).toList.count c = text.toList.count c := by
  have hLine : ∀ line, (indentedLine line).toList.count c = line.toList.count c := by
    intro line
    have hFeed : "\n".toList.count c = 0 := List.count_eq_zero.2 (by simp [h.1])
    have hBlanks : "  ".toList.count c = 0 := List.count_eq_zero.2 (by simp [h.2.2])
    rw [indentedLine, String.toList_append, List.count_append, hFeed]
    split
    · rename_i hEmpty
      rw [String.isEmpty_iff.1 hEmpty, Nat.add_zero]
    · rw [String.toList_append, List.count_append, hBlanks, Nat.zero_add, Nat.add_zero]
  have hLines : ∀ lines : List String, (String.join (lines.map indentedLine)).toList.count c =
      (String.join lines).toList.count c := by
    intro lines
    induction lines with
    | nil => rfl
    | cons line rest ih =>
        rw [List.map_cons, String.join_cons, String.join_cons, String.toList_append,
          String.toList_append, List.count_append, List.count_append, hLine, ih]
  rw [indentedText, hLines, Text.count_join_lines h.1 h.2.1]

variable {pair : Char × Char}

theorem surplus_indentedText (hPair : pair ∈ brackets) (text : String) :
    surplus pair (indentedText text) = surplus pair text :=
  surplus_congr hPair fun c hc => count_indentedText
    (forall_bracketChars (P := fun c => c ≠ '\n' ∧ c ≠ '\r' ∧ c ≠ ' ') (by decide) c hc) text

/-! ## Brackets of a request -/

/-- What makes an address unique has no brackets. -/
theorem surplus_of_isBusted (hPair : pair ∈ brackets) {url sent : String} (h : IsBusted url sent) :
    surplus pair sent = surplus pair url := by
  rcases h with rfl | ⟨number, rfl⟩
  · rfl
  · have hSeparator : surplus pair (if url.toList.contains '?' then "&" else "?") = 0 := by
      split
      · exact (by decide : IsBalanced "&") pair hPair
      · exact (by decide : IsBalanced "?") pair hPair
    have hKey : surplus pair "cache_buster=" = 0 :=
      (by decide : IsBalanced "cache_buster=") pair hPair
    have hNumber : surplus pair (toString number.toNat) = 0 := by
      refine surplus_eq_zero hPair fun c hc hBracket => ?_
      have hNot : ∀ c ∈ bracketChars, c.isDigit = false := forall_bracketChars (by decide)
      exact absurd (Text.isDigit_of_mem_toString hc) (by simp [hNot c hBracket])
    rw [withParameter, surplus_append, surplus_append, surplus_append, hSeparator, hKey, hNumber,
      add_zero, add_zero, add_zero]

/-- The texts that a request holds, as often as it holds them. -/
def requestTexts (plugin : Option (OrderedMap Json.Value)) (request : Request) : List String :=
  [request.query, request.method, request.url, request.url, request.sourceId, request.sourceId] ++
    request.headers.flatMap (fun header => [header.1, header.2]) ++
    (plugin.map fun plugin => (Json.ofMap Json.Value.json plugin).compact).toList

theorem surplus_headerLines (hPair : pair ∈ brackets) (headers : List (String × String)) :
    linesSurplus pair (headers.map namedLine) =
      ((headers.flatMap fun header => [header.1, header.2]).map (surplus pair)).sum := by
  have hLine : ∀ header, (namedLine header).surplus pair =
      surplus pair header.1 + surplus pair header.2 := by
    intro header
    have hName : surplus pair ": \x60" = 0 := (by decide : IsBalanced ": \x60") pair hPair
    have hEnd : surplus pair "\x60," = 0 := (by decide : IsBalanced "\x60,") pair hPair
    simp [namedLine, Line.surplus, Piece.content, hName, hEnd]
  induction headers with
  | nil => rfl
  | cons header rest ih =>
      rw [List.map_cons, linesSurplus_cons, hLine, ih, List.flatMap_cons, List.map_append,
        List.sum_append]
      simp

theorem surplus_optionLines (hPair : pair ∈ brackets) (request : Request) :
    linesSurplus pair (optionLines request) =
      ((request.headers.flatMap fun header => [header.1, header.2]).map (surplus pair)).sum +
        surplus pair request.method + surplus pair request.query := by
  have hEnd : surplus pair "," = 0 := (by decide : IsBalanced ",") pair hPair
  have hMethod : (methodLine request.method).surplus pair = surplus pair request.method := by
    have hStart : surplus pair "method: " = 0 := (by decide : IsBalanced "method: ") pair hPair
    simp [methodLine, Line.surplus, Piece.content, hStart, hEnd]
  have hQuery : linesSurplus pair [queryLine request.query] = surplus pair request.query := by
    have hStart : surplus pair "query: " = 0 := (by decide : IsBalanced "query: ") pair hPair
    simp [linesSurplus, queryLine, Line.surplus, Piece.content, hStart, hEnd]
  rw [optionLines, linesSurplus_append, linesSurplus_cons,
    linesSurplus_closed hPair (by decide), linesSurplus_closed hPair (by decide),
    surplus_headerLines hPair, hMethod, hQuery, add_assoc]

/-- A call closes what it opens, so it has the brackets of its address and its lines. -/
theorem surplus_callBlock (hPair : pair ∈ brackets) {start : String}
    (hClosed : IsBalanced (start ++ "\x60, \x7b" ++ "\x7d)")) (url : String) (body : List Line) :
    linesSurplus pair (block (callLine start url) body "\x7d)") =
      surplus pair url + linesSurplus pair body := by
  have hAround := hClosed pair hPair
  rw [surplus_append, surplus_append] at hAround
  have hCall : (callLine start url).surplus pair =
      surplus pair start + (surplus pair url + surplus pair "\x60, \x7b") := by
    simp [callLine, Line.surplus, Piece.content]
  rw [linesSurplus_block, hCall]
  omega

theorem surplus_callLines (hPair : pair ∈ brackets) (plugin : Option (OrderedMap Json.Value))
    (request : Request) :
    linesSurplus pair (callLines plugin request) =
      surplus pair request.url + linesSurplus pair (optionLines request) +
        ((plugin.map fun plugin => (Json.ofMap Json.Value.json plugin).compact).toList.map
          (surplus pair)).sum := by
  cases plugin with
  | none =>
      rw [callLines, plainLines, linesSurplus_append, linesSurplus_append,
        surplus_callBlock hPair (by decide), linesSurplus_closed hPair (by decide),
        linesSurplus_balanced hPair (by decide), linesSurplus_balanced hPair (by decide), add_zero]
      rfl
  | some plugin =>
      have hOptions : Line.surplus pair ⟨0, [.fixed "...",
          .inserted (Json.ofMap Json.Value.json plugin).compact, .fixed ","]⟩ =
          surplus pair (Json.ofMap Json.Value.json plugin).compact := by
        have hStart : surplus pair "..." = 0 := (by decide : IsBalanced "...") pair hPair
        have hEnd : surplus pair "," = 0 := (by decide : IsBalanced ",") pair hPair
        simp [Line.surplus, Piece.content, hStart, hEnd]
      have hType : surplus pair "type: 'json'," = 0 :=
        (by decide : IsBalanced "type: 'json',") pair hPair
      rw [callLines, pluginLines, surplus_callBlock hPair (by decide), linesSurplus_cons,
        linesSurplus_cons, linesSurplus_closed hPair (by decide), surplus_fixed, hOptions, hType,
        Option.map_some, Option.toList_some, List.map_singleton, List.sum_singleton]
      omega

/-- The brackets of a request are those of the texts that it holds. -/
theorem surplus_requestText (hPair : pair ∈ brackets) (plugin : Option (OrderedMap Json.Value))
    (request : Request) :
    surplus pair (requestText plugin request) =
      ((requestTexts plugin request).map (surplus pair)).sum := by
  have hResult : linesSurplus pair [resultLine request.sourceId] =
      surplus pair request.sourceId := by
    have hStart : surplus pair "result[" = 0 := (by decide : IsBalanced "result[") pair hPair
    have hEnd : surplus pair "] = json.data" = 0 :=
      (by decide : IsBalanced "] = json.data") pair hPair
    simp [linesSurplus, resultLine, Line.surplus, Piece.content, hStart, hEnd]
  have hReport : (reportLine request.sourceId request.url).surplus pair =
      surplus pair request.sourceId + surplus pair request.url := by
    have hAround : IsBalanced ("console.error('Error fetching graphql data', e, " ++ ")") := by
      decide
    have hComma : surplus pair ", " = 0 := (by decide : IsBalanced ", ") pair hPair
    have hSum := hAround pair hPair
    rw [surplus_append] at hSum
    simp only [reportLine, Line.surplus, Piece.content, List.map_cons, List.map_nil, List.sum_cons,
      List.sum_nil, hComma]
    omega
  have hClosed : IsBalanced ("try \x7b" ++ ("\x7d catch (e) \x7b" ++ "\x7d")) := by decide
  have hEnds := hClosed pair hPair
  rw [surplus_append, surplus_append] at hEnds
  rw [requestText_eq, surplus_written_parts hPair, requestLines, linesSurplus_cons,
    linesSurplus_append, linesSurplus_deeper, linesSurplus_append, surplus_callLines hPair,
    surplus_optionLines hPair, hResult, failureLines, linesSurplus_block, linesSurplus_cons,
    hReport, linesSurplus_balanced hPair (by decide), surplus_fixed, surplus_fixed, requestTexts]
  simp only [List.map_append, List.sum_append, List.map_cons, List.map_nil, List.sum_cons,
    List.sum_nil]
  omega

/-! ## Brackets of a module -/

/-- The texts of a data source and its payload in a data file, as often as they are in it: payload,
method, address and id, the headers and the options of the fetch plugin. A data source that does not
understand queries has none. -/
def sourceTexts (options : Options) (source : DataSource) (payload : String) : List String :=
  match source.kind with
  | .other => []
  | .graphql =>
    [payload, source.transport.method, source.transport.url, source.transport.url, source.id,
        source.id] ++
      (requestHeaders source.transport.headers).flatMap (fun header => [header.1, header.2]) ++
      (options.fetchPlugin.map fun plugin => (Json.ofMap Json.Value.json plugin).compact).toList

theorem surplus_fetchSource {ε : Type} (hPair : pair ∈ brackets) {options : Options}
    {source : DataSource} {payload fetch : String} {context next : Context}
    (hRun : (fetchSource (ε := ε) options source payload).runIn context = (.ok fetch, next)) :
    surplus pair fetch = ((sourceTexts options source payload).map (surplus pair)).sum := by
  have hText := fetchSource_eq_ok hRun
  unfold sourceTexts
  cases hKind : source.kind with
  | other =>
      rw [hKind] at hText
      obtain rfl : fetch = "" := hText
      rfl
  | graphql =>
      rw [hKind] at hText
      obtain ⟨url, hBusted, rfl⟩ := hText
      have hMethod : surplus pair (Request.ofSource source url payload).method =
          surplus pair source.transport.method := by
        rw [Request.ofSource]
        split
        · rename_i hEmpty
          rw [String.isEmpty_iff.1 hEmpty]
          exact (by decide : IsBalanced "POST") pair hPair
        · rfl
      rw [surplus_requestText hPair]
      simp only [requestTexts, List.map_append, List.sum_append, List.map_cons, List.map_nil,
        List.sum_cons, List.sum_nil, hMethod]
      simp only [Request.ofSource, surplus_of_isBusted hPair hBusted]

/-- The texts that a data file is given for the query of a data source. -/
def givenTexts (options : Options) (dataSource : String → Option DataSource)
    (entry : String × String) : List String :=
  match dataSource entry.1 with
  | some source => sourceTexts options source entry.2
  | none => []

/-- A module closes what it opens. -/
theorem isBalanced_opening_closing (usesPlugin : Bool) :
    IsBalanced (opening usesPlugin ++ closing) := by
  cases usesPlugin <;> decide

/-- The brackets of a data file are those of the texts that it was given for its queries. So it is
balanced when those texts are. -/
theorem dataFile_surplus (options : Options) {dataSource : String → Option DataSource}
    {query : OrderedMap String} (hKnown : ∀ id ∈ query.keys, (dataSource id).isSome = true)
    (context : Context) :
    ∃ text next, (dataFile options dataSource query).runIn context = (.ok text, next) ∧
      (∀ pair ∈ brackets, surplus pair text =
        (query.entries.map fun entry =>
          ((givenTexts options dataSource entry).map (surplus pair)).sum).sum) ∧
      ((∀ entry ∈ query.entries, ∀ given ∈ givenTexts options dataSource entry,
        IsBalanced given) → IsBalanced text) := by
  obtain ⟨fetches, next, hRun, hAll⟩ := dataFile_returns options hKnown context
  have hSurplus : ∀ pair ∈ brackets,
      surplus pair (opening options.fetchPlugin.isSome ++ String.join (fetches.map indentedText) ++
        closing) =
      (query.entries.map fun entry =>
        ((givenTexts options dataSource entry).map (surplus pair)).sum).sum := by
    intro pair hPair
    have hTexts : (query.entries.map fun entry =>
        ((givenTexts options dataSource entry).map (surplus pair)).sum) =
        (fetches.map indentedText).map (surplus pair) := by
      rw [← List.forall₂_eq_eq_eq, List.forall₂_map_left_iff, List.forall₂_map_right_iff,
        List.forall₂_map_right_iff]
      refine hAll.imp fun entry fetch hEntry => ?_
      obtain ⟨source, before, after, hSource, hFetch⟩ := hEntry
      rw [surplus_indentedText hPair, surplus_fetchSource hPair hFetch, givenTexts, hSource]
    have hAround := isBalanced_opening_closing options.fetchPlugin.isSome pair hPair
    rw [surplus_append] at hAround
    rw [surplus_append, surplus_append, surplus_join, hTexts]
    omega
  refine ⟨_, next, hRun, hSurplus, fun hBalanced pair hPair => ?_⟩
  rw [hSurplus pair hPair]
  refine List.sum_eq_zero fun total hTotal => ?_
  obtain ⟨entry, hEntry, rfl⟩ := List.mem_map.1 hTotal
  refine List.sum_eq_zero fun part hPart => ?_
  obtain ⟨given, hGiven, rfl⟩ := List.mem_map.1 hPart
  exact hBalanced entry hEntry given hGiven pair hPair

/-- A page with a query that is cut off, which leaves its data file open, and one that gets no
request. -/
theorem cutQuery_surplus :
    (∀ id ∈ (OrderedMap.ofList [("cms", "\x7b a(b: \x7b"), ("files", "((")]).keys,
        (threeSources id).isSome = true) ∧
      ∃ text next,
        (dataFile { fetchPlugin := some .empty, cacheBuster := .random } threeSources
            (.ofList [("cms", "\x7b a(b: \x7b"), ("files", "((")])).runIn (Context.start {} 7 []) =
          (.ok text, next) ∧
        surplus ('{', '}') text = 2 ∧ surplus ('(', ')') text = 1 := by
  have hKnown : ∀ id ∈ (OrderedMap.ofList [("cms", "\x7b a(b: \x7b"), ("files", "((")]).keys,
      (threeSources id).isSome = true := fun _ _ => rfl
  obtain ⟨text, next, hRun, hSurplus, -⟩ := dataFile_surplus
    { fetchPlugin := some .empty, cacheBuster := .random } hKnown (Context.start {} 7 [])
  refine ⟨hKnown, text, next, hRun, ?_, ?_⟩
  · rw [hSurplus ('{', '}') (by decide)]
    decide +kernel
  · rw [hSurplus ('(', ')') (by decide)]
    decide +kernel

end DataFile

end PagePress
