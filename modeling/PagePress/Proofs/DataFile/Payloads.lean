import PagePress.Proofs.DataFile.Modules
import PagePress.Proofs.Permalinks

/-!
# Payloads in a data file

A request holds its query as it was given. But the lines of a request are indented once more when
the module is put together, and that does not stop at literals: in the template literal of a query
the lines but the first get two blanks in front, unless they are empty. The blanks are part of what
is sent. So a query is sent as it was given exactly when it has one line.

## Main results

* `indentedText_append` — lines that are ended are indented apart from those behind them.
* `toList_indentedText_queryLine` — what becomes of the line of a query.
* `dataFile_payloads` — which text each data source is sent.
-/

namespace PagePress.DataFile

open Script

/-! ## Indentation line by line -/

/-- A text without an open line at its end. -/
def IsEnded (text : String) : Prop := text = "" ∨ ∃ lines, text = lines ++ "\n"

theorem isEnded_written_parts (lines : List Line) : IsEnded (written (parts lines)) := by
  rcases List.eq_nil_or_concat lines with rfl | ⟨before, last, rfl⟩
  · exact .inl rfl
  · refine .inr ⟨written (parts before) ++ last.indentation ++ written last.pieces, ?_⟩
    simp [parts, Line.parts, Piece.write, String.append_assoc]

theorem lines_ended (text rest : String) :
    Text.lines (text ++ "\n" ++ rest) =
      ((Text.cut '\n' text.toList).map Text.dropReturn).map String.ofList ++ Text.lines rest := by
  have hChars : (text ++ "\n" ++ rest).toList = text.toList ++ '\n' :: rest.toList := by
    simp [String.toList_append]
  rw [Text.lines, hChars, Text.cut_append, Text.linesOfPieces_append (Text.cut_ne_nil _ _),
    List.map_append, Text.lines]

theorem lines_append_of_isEnded {first : String} (h : IsEnded first) (second : String) :
    Text.lines (first ++ second) = Text.lines first ++ Text.lines second := by
  rcases h with rfl | ⟨text, rfl⟩
  · rw [String.empty_append]
    rfl
  · have hFirst := lines_ended text ""
    rw [String.append_empty, show Text.lines "" = [] from rfl, List.append_nil] at hFirst
    rw [lines_ended, hFirst]

/-- Lines that are ended are indented apart from those behind them. -/
theorem indentedText_append {first : String} (h : IsEnded first) (second : String) :
    indentedText (first ++ second) = indentedText first ++ indentedText second := by
  rw [indentedText, lines_append_of_isEnded h, List.map_append, String.join_append, indentedText,
    indentedText]

/-! ## Indentation inside a line -/

/-- A piece of a text between line feeds, as an indented line. -/
def indentedPiece (piece : List Char) : List Char :=
  (if piece.isEmpty then [] else ' ' :: ' ' :: piece) ++ ['\n']

theorem toList_indentedText {text : String} (h : '\r' ∉ text.toList) :
    (indentedText (text ++ "\n")).toList = (Text.cut '\n' text.toList).flatMap indentedPiece := by
  have hPiece : ∀ piece ∈ Text.cut '\n' text.toList, Text.dropReturn piece = id piece :=
    fun piece hPiece =>
      Text.dropReturn_of_not_mem fun hReturn => h (Text.mem_of_mem_cut hPiece hReturn)
  have hLines : Text.lines (text ++ "\n") = (Text.cut '\n' text.toList).map String.ofList := by
    have hEnded := lines_ended text ""
    rw [String.append_empty, List.map_congr_left hPiece, List.map_id] at hEnded
    exact hEnded.trans (List.append_nil _)
  rw [indentedText, hLines, String.toList_join, List.flatMap_map, List.flatMap_map]
  refine congrArg (List.flatMap · _) (funext fun piece => ?_)
  cases piece with
  | nil => rfl
  | cons c cs => simp [indentedLine, indentedPiece, String.toList_append]

/-- Before a last piece with text, the first piece of a text is empty when the text starts with a
line feed. -/
theorem isEmpty_of_cut {last : List Char} (hFeed : '\n' ∉ last) (hSome : last ≠ [])
    {cs piece : List Char} {pieces : List (List Char)}
    (hCut : Text.cut '\n' (cs ++ last) = piece :: pieces) :
    piece = [] ↔ cs.head? = some '\n' := by
  cases cs with
  | nil =>
      rw [List.nil_append, Text.cut_of_not_mem hFeed] at hCut
      obtain ⟨rfl, -⟩ := List.cons.inj hCut
      simp [hSome]
  | cons c cs =>
      rw [List.cons_append, Text.cut] at hCut
      by_cases hc : c = '\n'
      · rw [if_pos hc] at hCut
        obtain ⟨rfl, -⟩ := List.cons.inj hCut
        simp [hc]
      · rw [if_neg hc] at hCut
        split at hCut
        · obtain ⟨rfl, -⟩ := List.cons.inj hCut
          simp [hc]
        · obtain ⟨rfl, -⟩ := List.cons.inj hCut
          simp [hc]

/-- Before a last piece with text, the pieces of a text are indented like the lines of a literal,
and the first one by itself. -/
theorem flatMap_indentedPiece {last : List Char} (hFeed : '\n' ∉ last) (hSome : last ≠ [])
    (cs : List Char) :
    (Text.cut '\n' (cs ++ last)).flatMap indentedPiece =
      (if cs.head? = some '\n' then [] else [' ', ' ']) ++ indented cs ++ last ++ ['\n'] := by
  induction cs with
  | nil =>
      rw [List.nil_append, Text.cut_of_not_mem hFeed]
      simp [indentedPiece, indented, hSome]
  | cons c cs ih =>
      rw [List.cons_append, Text.cut]
      by_cases hc : c = '\n'
      · subst hc
        rw [if_pos rfl, List.flatMap_cons, ih, indented]
        by_cases hHead : cs.head? = some '\n'
        · simp [indentedPiece, hHead]
        · simp [indentedPiece, hHead]
      · rw [if_neg hc, indented_cons hc]
        cases hCut : Text.cut '\n' (cs ++ last) with
        | nil => exact absurd hCut (Text.cut_ne_nil _ _)
        | cons piece pieces =>
            have hEmpty := isEmpty_of_cut hFeed hSome hCut
            rw [hCut] at ih
            by_cases hPiece : piece = []
            · simpa [indentedPiece, hPiece, hEmpty.1 hPiece, hc] using ih
            · have hHead : cs.head? ≠ some '\n' := fun h => hPiece (hEmpty.2 h)
              simpa [indentedPiece, hPiece, hHead, hc] using ih

theorem indented_append {cs : List Char} (h : '\n' ∉ cs) (rest : List Char) :
    indented (cs ++ rest) = cs ++ indented rest := by
  induction cs with
  | nil => rfl
  | cons c cs ih =>
      obtain ⟨hHead, hRest⟩ := not_or.1 (fun hOr => h (List.mem_cons.2 hOr))
      rw [List.cons_append, indented_cons (Ne.symm hHead), ih hRest, List.cons_append]

theorem written_queryLine (query : String) (depth : Nat) :
    written ((queryLine query).deeper depth).parts =
      LineBuffer.repeated "  " depth ++ "query: " ++ Literal.template.write query ++ "," ++
        "\n" := by
  have hText : (written (queryLine query).pieces).isEmpty = false := by
    simp [queryLine, Piece.write, Bool.eq_false_iff, String.isEmpty_iff, String.append_eq_empty_iff]
  have hBlanks : ((queryLine query).deeper depth).indentation = LineBuffer.repeated "  " depth := by
    rw [Line.indentation, if_neg (by simp [Line.deeper, hText]), Line.deeper, queryLine,
      Nat.zero_add]
  rw [Line.parts, hBlanks]
  simp [queryLine, Line.deeper, Piece.write, String.append_assoc]

/-- The line of a query up to its text. -/
def queryLead (depth : Nat) : List Char :=
  (LineBuffer.repeated "  " depth ++ "query: ").toList ++ [Literal.template.delimiter]

theorem ne_of_mem_queryLead {c : Char} {depth : Nat} (h : c ∈ queryLead depth) :
    c ≠ '\n' ∧ c ≠ '\r' := by
  rw [queryLead, String.toList_append, List.mem_append, List.mem_append] at h
  rcases h with (hBlank | hKey) | hDelimiter
  · rw [LineBuffer.mem_repeated hBlank]
    decide
  · exact ⟨fun hFeed => absurd (hFeed ▸ hKey) (by decide),
      fun hReturn => absurd (hReturn ▸ hKey) (by decide)⟩
  · rw [List.mem_singleton.1 hDelimiter]
    decide

/-- What becomes of the line of a query: two blanks more in front, and its literal is indented. -/
theorem toList_indentedText_queryLine {query : String} (h : '\r' ∉ query.toList) (depth : Nat) :
    (indentedText (written ((queryLine query).deeper depth).parts)).toList =
      queryLead (depth + 1) ++ (Literal.template.escape (indented query.toList) ++
        Literal.template.delimiter :: [',', '\n']) := by
  have hChars : (LineBuffer.repeated "  " depth ++ "query: " ++ Literal.template.write query ++
      ",").toList =
      queryLead depth ++ Literal.template.escape query.toList ++
        [Literal.template.delimiter, ','] := by
    rw [queryLead, String.toList_append, String.toList_append, Literal.toList_write]
    simp [String.toList_append]
  have hReturn : '\r' ∉ (LineBuffer.repeated "  " depth ++ "query: " ++
      Literal.template.write query ++ ",").toList := by
    rw [hChars, List.mem_append, List.mem_append, Literal.mem_escape_iff _ (by decide)]
    rintro ((hm | hm) | hm)
    · exact (ne_of_mem_queryLead hm).2 rfl
    · exact h hm
    · exact absurd hm (by decide)
  have hHead : (queryLead depth ++ Literal.template.escape query.toList).head? ≠ some '\n' := by
    intro hFeed
    have hSome : queryLead depth ≠ [] := List.append_ne_nil_of_right_ne_nil _ (by simp)
    rw [List.head?_append_of_ne_nil _ hSome] at hFeed
    exact (ne_of_mem_queryLead (List.mem_of_mem_head? hFeed)).1 rfl
  rw [written_queryLine, toList_indentedText hReturn, hChars,
    flatMap_indentedPiece (by decide) (by decide), if_neg hHead,
    indented_append (fun hm => (ne_of_mem_queryLead hm).1 rfl), ← Literal.escape_template_indented,
    queryLead, queryLead, LineBuffer.repeated]
  simp [String.toList_append]

/-! ## The payload of a request -/

theorem mem_block {line : Line} {body : List Line} (h : line ∈ body) (opening : Line)
    (closing : String) : line.deeper 1 ∈ block opening body closing :=
  List.mem_cons_of_mem _ (List.mem_append_left _ (List.mem_map_of_mem h))

theorem deeper_mem_block {line : Line} {body : List Line} {depth : Nat}
    (h : line.deeper depth ∈ body) (opening : Line) (closing : String) :
    line.deeper (depth + 1) ∈ block opening body closing :=
  mem_block h opening closing

/-- The query has its line among those of a request. -/
theorem exists_queryLine (plugin : Option (OrderedMap Json.Value)) (request : Request) :
    ∃ depth, (queryLine request.query).deeper depth ∈ requestLines plugin request := by
  have hOptions : (queryLine request.query).deeper 1 ∈ optionLines request :=
    List.mem_append_right _ (List.mem_cons_of_mem _ (mem_block (List.mem_singleton.2 rfl) _ _))
  have hCall : ∃ depth, (queryLine request.query).deeper depth ∈ callLines plugin request := by
    cases plugin with
    | none =>
        exact ⟨2, List.mem_append_left _ (List.mem_append_left _ (deeper_mem_block hOptions _ _))⟩
    | some plugin =>
        refine ⟨3, deeper_mem_block ?_ _ _⟩
        exact List.mem_cons_of_mem _ (List.mem_cons_of_mem _ (deeper_mem_block hOptions _ _))
  obtain ⟨depth, hLine⟩ := hCall
  refine ⟨depth + 1, List.mem_cons_of_mem _ (List.mem_append_left _ ?_)⟩
  exact List.mem_map.2 ⟨_, List.mem_append_left _ hLine, rfl⟩

/-- A block of lines sends a text: it is what a script reads of the template literal that stands
behind `query:`, in the line of the query, behind the lines before that one. -/
def Sends (lines : List Line) (query block : String) (sent : List Char) : Prop :=
  ∃ before depth after tail rest,
    lines = before ++ (queryLine query).deeper depth :: after ∧
    block.toList =
      (indentedText (written (parts before))).toList ++ (queryLead (depth + 1) ++ tail) ∧
    Literal.template.read tail = some (sent, rest)

/-- The lines of a script, indented, around the line of a query. -/
theorem toList_indentedText_split {query : String} (h : '\r' ∉ query.toList)
    (before after : List Line) (depth : Nat) :
    (indentedText (written (parts (before ++ (queryLine query).deeper depth :: after)))).toList =
      (indentedText (written (parts before))).toList ++ (queryLead (depth + 1) ++
        (Literal.template.escape (indented query.toList) ++ Literal.template.delimiter ::
          ([',', '\n'] ++ (indentedText (written (parts after))).toList))) := by
  have hEnded : IsEnded (written ((queryLine query).deeper depth).parts) := by
    have hOne := isEnded_written_parts [(queryLine query).deeper depth]
    rwa [parts, List.flatMap_singleton] at hOne
  rw [parts_append, written_append, indentedText_append (isEnded_written_parts before), parts_cons,
    written_append, indentedText_append hEnded, String.toList_append, String.toList_append,
    toList_indentedText_queryLine h]
  simp

/-- A request sends its query indented, and nothing else. -/
theorem sends_iff (plugin : Option (OrderedMap Json.Value)) (request : Request)
    (h : '\r' ∉ request.query.toList) (sent : List Char) :
    Sends (requestLines plugin request) request.query (indentedText (requestText plugin request))
        sent ↔
      sent = indented request.query.toList := by
  have hRead := fun rest : List Char =>
    Literal.read_escape .template (indented request.query.toList) ([',', '\n'] ++ rest)
  rw [requestText_eq]
  constructor
  · rintro ⟨before, depth, after, tail, rest, hSplit, hBlock, hSent⟩
    rw [hSplit, toList_indentedText_split h] at hBlock
    rw [← List.append_cancel_left (List.append_cancel_left hBlock), hRead] at hSent
    exact (congrArg Prod.fst (Option.some.inj hSent)).symm
  · rintro rfl
    obtain ⟨depth, hLine⟩ := exists_queryLine plugin request
    obtain ⟨before, after, hSplit⟩ := List.append_of_mem hLine
    refine ⟨before, depth, after, _, _, hSplit, ?_,
      hRead (indentedText (written (parts after))).toList⟩
    rw [hSplit, toList_indentedText_split h]

/-- The payloads of a data file. Each data source that understands queries has a block of lines with
a template literal behind `query:`, and what a script reads of it is the payload with two blanks
before each of its lines but the first, unless they are empty. That is the payload itself exactly
when it has one line. -/
theorem dataFile_payloads (options : Options) {dataSource : String → Option DataSource}
    {query : OrderedMap String} (hKnown : ∀ id ∈ query.keys, (dataSource id).isSome = true)
    (hReturn : ∀ payload ∈ query.values, '\r' ∉ payload.toList) (context : Context) :
    ∃ text next blocks, (dataFile options dataSource query).runIn context = (.ok text, next) ∧
      text = opening options.fetchPlugin.isSome ++ String.join blocks ++ closing ∧
      List.Forall₂ (fun entry block => ∃ source, dataSource entry.1 = some source ∧
        match source.kind with
        | .other => block = ""
        | .graphql => ∃ url lines, IsBusted source.transport.url url ∧
            lines = requestLines options.fetchPlugin (Request.ofSource source url entry.2) ∧
            block = indentedText (written (parts lines)) ∧
            Sends lines entry.2 block (indented entry.2.toList) ∧
            (Sends lines entry.2 block entry.2.toList ↔ '\n' ∉ entry.2.toList))
        query.entries blocks := by
  have hPayloads : ∀ entry ∈ query.entries, '\r' ∉ entry.2.toList := fun entry hEntry =>
    hReturn entry.2 (List.mem_map_of_mem hEntry)
  obtain ⟨fetches, next, hRun, hAll⟩ := dataFile_returns options hKnown context
  refine ⟨_, next, fetches.map indentedText, hRun, rfl, ?_⟩
  rw [List.forall₂_map_right_iff]
  refine ((List.forall₂_and_left _ _).2 ⟨hPayloads, hAll⟩).imp fun entry fetch hEntry => ?_
  obtain ⟨hClean, source, before, after, hSource, hFetch⟩ := hEntry
  refine ⟨source, hSource, ?_⟩
  have hText := fetchSource_eq_ok hFetch
  cases hKind : source.kind with
  | other =>
      rw [hKind] at hText
      obtain rfl : fetch = "" := hText
      rfl
  | graphql =>
      rw [hKind] at hText
      obtain ⟨url, hBusted, rfl⟩ := hText
      have hSends := sends_iff options.fetchPlugin (Request.ofSource source url entry.2) hClean
      refine ⟨url, _, hBusted, rfl, by rw [requestText_eq], (hSends _).2 rfl, ?_⟩
      rw [← indented_eq_self_iff, eq_comm]
      exact hSends _

/-- A query of three lines, sent with two blanks more before its second and its third. -/
theorem threeLines_payload :
    (∀ id ∈ (OrderedMap.ofList [("cms", "\x7b\n  a\n\x7d")]).keys,
        (threeSources id).isSome = true) ∧
      (∀ payload ∈ (OrderedMap.ofList [("cms", "\x7b\n  a\n\x7d")]).values,
        '\r' ∉ payload.toList) ∧
      ∃ text next block lines,
        (dataFile {} threeSources (.ofList [("cms", "\x7b\n  a\n\x7d")])).runIn
            (Context.start {} 7 []) = (.ok text, next) ∧
          text = opening false ++ block ++ closing ∧
          Sends lines "\x7b\n  a\n\x7d" block "\x7b\n    a\n  \x7d".toList := by
  have hKnown : ∀ id ∈ (OrderedMap.ofList [("cms", "\x7b\n  a\n\x7d")]).keys,
      (threeSources id).isSome = true := fun _ _ => rfl
  have hReturn : ∀ payload ∈ (OrderedMap.ofList [("cms", "\x7b\n  a\n\x7d")]).values,
      '\r' ∉ payload.toList := by decide
  obtain ⟨text, next, blocks, hRun, hText, hAll⟩ :=
    dataFile_payloads {} hKnown hReturn (Context.start {} 7 [])
  obtain ⟨block, noneLeft, ⟨source, hSource, hBlock⟩, hEnd, rfl⟩ :=
    List.forall₂_cons_left_iff.1 hAll
  obtain rfl := List.forall₂_nil_left_iff.1 hEnd
  obtain rfl := Option.some.inj hSource
  obtain ⟨url, lines, -, -, -, hSends, -⟩ := hBlock
  refine ⟨hKnown, hReturn, text, next, block, lines, hRun, ?_, hSends⟩
  rw [hText, String.join_cons, String.join_nil, String.append_empty]
  rfl

/-- A query of three lines, which does not reach its data source as it is. -/
theorem dataFile_payload_indented :
    ¬ ∀ (payload text : String) (next : Context), '\r' ∉ payload.toList →
      (dataFile { cacheBuster := .none } (fun id => some { id := id })
        (.ofList [("cms", payload)])).runIn (Context.start {} 0 []) = (.ok text, next) →
      ∃ block, text = opening false ++ block ++ closing ∧
        Sends (requestLines none (Request.ofSource { id := "cms" } "" payload)) payload block
          payload.toList := by
  intro h
  obtain ⟨block, hText, hSends⟩ := h "\x7b\n  a\n\x7d" _ _ (by decide) (dataFile_run rfl)
  have hBlock : block = indentedText
      (requestText none (Request.ofSource { id := "cms" } "" "\x7b\n  a\n\x7d")) := by
    have hJoin : ∀ fetch, String.join [indentedText fetch] = indentedText fetch := fun fetch => by
      simp
    rw [List.map_singleton, hJoin] at hText
    exact ((String.append_right_inj _).1 ((String.append_left_inj _).1 hText)).symm
  rw [hBlock] at hSends
  exact absurd ((sends_iff none _ (by decide) _).1 hSends) (by decide)

end PagePress.DataFile
