import PagePress.Proofs.DataFile.Requests
import PagePress.Proofs.OneLine
import PagePress.Proofs.Publication.Frame

/-!
# Modules of a data file

A data file is a module around requests. The requests are made in the order of the queries, all of
them or none: a data source that is not known ends the work before anything is written. Then the
lines of each request are indented by one step and put between an opening and a closing that are the
same for every page.

## Main results

* `moduleText_eq` — the text of a module by its requests.
* `fetchAll_run` — the requests of known data sources, each run where the one before it ended.
* `dataFile_returns` — the data file of known data sources.
* `dataFile_covers` — the data file of queries, or the first data source that is not known.
-/

namespace PagePress.DataFile

open LineBuffer (Writes)
open Pass (Keeps)

/-! ## The text of a module -/

/-- The lines before the requests. -/
def opening (usesPlugin : Bool) : String :=
  (if usesPlugin then "const EleventyFetch = require('@11ty/eleventy-fetch')\n" else "") ++
    "module.exports = async function () \x7b\n  const result = \x7b\x7d\n"

/-- The lines behind the requests. -/
def closing : String := "  return result\n\x7d\n"

/-- A line with two blanks before it, unless it is empty, and its line feed. -/
def indentedLine (line : String) : String :=
  (if line.isEmpty then "" else "  " ++ line) ++ "\n"

/-- The lines of a text, each indented. -/
def indentedText (text : String) : String :=
  String.join ((Text.lines text).map indentedLine)

/-- A text is another one with each of its lines indented. -/
def IsIndented (text indented : String) : Prop :=
  ∃ lines : List (List Char), Text.HasLines text.toList lines ∧
    indented = String.join (lines.map fun line => indentedLine (String.ofList line))

theorem isIndented_indentedText (text : String) : IsIndented text (indentedText text) := by
  refine ⟨(Text.lines text).map String.toList, Text.hasLines_iff.2 rfl, ?_⟩
  simp [indentedText, Function.comp_def]

theorem IsIndented.eq_empty {indented : String} (h : IsIndented "" indented) : indented = "" := by
  obtain ⟨lines, hLines, rfl⟩ := h
  rw [← Text.hasLines_iff.1 hLines]
  rfl

theorem wholeLine_one (line : String) : LineBuffer.wholeLine "  " 1 line = indentedLine line := by
  have hUnit : LineBuffer.repeated "  " 1 = "  " := by decide
  rw [LineBuffer.wholeLine, hUnit, indentedLine]

theorem join_indentedText (fetches : List String) :
    String.join ((fetches.flatMap Text.lines).map indentedLine) =
      String.join (fetches.map indentedText) := by
  induction fetches with
  | nil => rfl
  | cons fetch rest ih =>
      rw [List.flatMap_cons, List.map_append, String.join_append, ih, List.map_cons,
        String.join_cons, indentedText]

/-- The lines of the function that a module exports. -/
theorem layout_module (texts : List String) :
    LineBuffer.layout
        ((0, "module.exports = async function () \x7b") ::
          (LineBuffer.deeper 1 ((0, "const result = \x7b\x7d") ::
            (texts.map (fun text => (0, text)) ++ [(0, "return result")])) ++ [(0, "\x7d")])) =
      "module.exports = async function () \x7b\n  const result = \x7b\x7d\n" ++
        String.join (texts.map indentedLine) ++ closing := by
  have hFirst : LineBuffer.wholeLine "  " 0 "module.exports = async function () \x7b" ++
      indentedLine "const result = \x7b\x7d" =
      "module.exports = async function () \x7b\n  const result = \x7b\x7d\n" := by decide
  have hLast : indentedLine "return result" ++ LineBuffer.wholeLine "  " 0 "\x7d" = closing := by
    decide
  rw [← hFirst, ← hLast]
  simp [LineBuffer.layout, LineBuffer.deeper, wholeLine_one, Function.comp_def,
    String.append_assoc, String.join_cons, String.join_append]

theorem moduleText_eq (usesPlugin : Bool) (fetches : List String) :
    moduleText usesPlugin fetches =
      opening usesPlugin ++ String.join (fetches.map indentedText) ++ closing := by
  have hFunction := (((Writes.addLine "const result = \x7b\x7d").andThen
    (Writes.addLines (fetches.flatMap Text.lines))).andThen (Writes.addLine "return result")).block
      "module.exports = async function () \x7b" "\x7d"
  rw [← join_indentedText]
  cases usesPlugin with
  | false =>
      have hText := hFunction.text_new
      rw [List.append_assoc, List.singleton_append, layout_module] at hText
      rw [opening, if_neg Bool.false_ne_true, String.empty_append]
      exact hText
  | true =>
      have hText := ((Writes.addLine
        "const EleventyFetch = require('@11ty/eleventy-fetch')").andThen hFunction).text_new
      have hRequire : LineBuffer.layout
          [(0, "const EleventyFetch = require('@11ty/eleventy-fetch')")] =
          "const EleventyFetch = require('@11ty/eleventy-fetch')\n" := by decide
      rw [LineBuffer.layout_append, hRequire, List.append_assoc, List.singleton_append,
        layout_module, ← String.append_assoc, ← String.append_assoc] at hText
      rw [opening, if_pos rfl]
      exact hText

/-! ## The requests of a page -/

section Requests

variable {options : Options} {dataSource : String → Option DataSource}

/-- The requests of known data sources, each run where the one before it ended. What every request
keeps of the context holds all along. -/
theorem fetchAll_run (options : Options) (Kept : Context → Prop)
    (hKept : ∀ {source query context fetch next}, Kept context →
      (fetchSource (ε := PublishError) options source query).runIn context = (.ok fetch, next) →
      Kept next) {entries : List (String × String)}
    (hKnown : ∀ entry ∈ entries, (dataSource entry.1).isSome = true) (context : Context)
    (hContext : Kept context) :
    ∃ fetches next, (fetchAll options dataSource entries).runIn context = (.ok fetches, next) ∧
      Kept next ∧
      List.Forall₂ (fun entry fetch => ∃ source before after, dataSource entry.1 = some source ∧
        Kept before ∧ Kept after ∧
        (fetchSource (ε := PublishError) options source entry.2).runIn before =
          (.ok fetch, after)) entries fetches := by
  induction entries generalizing context with
  | nil => exact ⟨[], context, rfl, hContext, .nil⟩
  | cons entry rest ih =>
      obtain ⟨hEntry, hRest⟩ := List.forall_mem_cons.1 hKnown
      obtain ⟨source, hSource⟩ := Option.isSome_iff_exists.1 hEntry
      obtain ⟨fetch, between, hFetch⟩ :=
        fetchSource_ok (ε := PublishError) options source entry.2 context
      have hBetween := hKept hContext hFetch
      obtain ⟨fetches, next, hRun, hNext, hAll⟩ := ih hRest between hBetween
      refine ⟨fetch :: fetches, next, ?_, hNext,
        .cons ⟨source, context, between, hSource, hContext, hBetween, hFetch⟩ hAll⟩
      obtain ⟨id, query⟩ := entry
      simp only [fetchAll, hSource]
      rw [Pass.runIn_bind_of_ok hFetch, Pass.runIn_bind_of_ok hRun]
      rfl

theorem dataFile_run {query : OrderedMap String} {context next : Context} {fetches : List String}
    (hRun : (fetchAll options dataSource query.entries).runIn context = (.ok fetches, next)) :
    (dataFile options dataSource query).runIn context =
      (.ok (opening options.fetchPlugin.isSome ++ String.join (fetches.map indentedText) ++
        closing), next) := by
  rw [dataFile, Pass.runIn_bind_of_ok hRun, moduleText_eq]
  rfl

/-- The data file of known data sources: the requests of all entries, indented, in order. -/
theorem dataFile_returns (options : Options) {query : OrderedMap String}
    (hKnown : ∀ id ∈ query.keys, (dataSource id).isSome = true) (context : Context) :
    ∃ fetches next,
      (dataFile options dataSource query).runIn context =
          (.ok (opening options.fetchPlugin.isSome ++ String.join (fetches.map indentedText) ++
            closing), next) ∧
        List.Forall₂ (fun entry fetch => ∃ source before after, dataSource entry.1 = some source ∧
          (fetchSource (ε := PublishError) options source entry.2).runIn before =
            (.ok fetch, after)) query.entries fetches := by
  have hEntries : ∀ entry ∈ query.entries, (dataSource entry.1).isSome = true := fun entry hEntry =>
    hKnown entry.1 (List.mem_map_of_mem hEntry)
  obtain ⟨fetches, next, hRun, -, hAll⟩ := fetchAll_run options (fun _ => True)
    (fun _ _ => trivial) hEntries context trivial
  refine ⟨fetches, next, dataFile_run hRun, hAll.imp fun entry fetch hEntry => ?_⟩
  obtain ⟨source, before, after, hSource, -, -, hFetch⟩ := hEntry
  exact ⟨source, before, after, hSource, hFetch⟩

/-- The first data source of a query that is not known ends the work, and the context is as before,
unless random numbers were drawn. -/
theorem dataFile_unknown (hBuster : options.cacheBuster ≠ .random) {query : OrderedMap String}
    {id : String} (hUnknown : query.keys.find? (fun id => (dataSource id).isNone) = some id)
    (context : Context) :
    (dataFile options dataSource query).runIn context =
      (.error (.unknownDataSource id), context) := by
  have hFault := fetchAll_fault? options dataSource query.entries context
  have hFirst : (query.entries.find? fun entry => (dataSource entry.1).isNone).map Prod.fst =
      some id := by
    rw [← hUnknown, OrderedMap.keys, List.find?_map]
    rfl
  rw [hFirst] at hFault
  obtain ⟨next, hRun⟩ := Pass.fault?_eq_some hFault
  have hNext := fetchAll_keeps hBuster dataSource query.entries context
  rw [hRun] at hNext
  obtain rfl : next = context := hNext
  rw [dataFile, Pass.runIn_bind_of_error hRun]

end Requests

theorem forall₂_isIndented (fetches : List String) :
    List.Forall₂ IsIndented fetches (fetches.map indentedText) :=
  List.forall₂_map_right_iff.2 (List.forall₂_same.2 fun fetch _ => isIndented_indentedText fetch)

/-- The data file of queries. When a data source is not known, the first such one in order is the
error. Otherwise the module has its opening, the lines of each request in order, indented, and its
closing. A data source that does not understand queries adds nothing. -/
theorem dataFile_covers {options : Options} (hBuster : options.cacheBuster ≠ .random)
    (dataSource : String → Option DataSource) (query : OrderedMap String) (context : Context) :
    match query.keys.find? fun id => (dataSource id).isNone with
    | some id =>
      (dataFile options dataSource query).runIn context =
        (.error (.unknownDataSource id), context)
    | none =>
      ∃ fetches blocks,
        List.Forall₂ (fun entry fetch => ∃ source, dataSource entry.1 = some source ∧
          (fetchSource (ε := PublishError) options source entry.2).runIn context =
            (.ok fetch, context) ∧
          (source.kind = .other → fetch = "")) query.entries fetches ∧
        List.Forall₂ IsIndented fetches blocks ∧
        (dataFile options dataSource query).runIn context =
          (.ok (opening options.fetchPlugin.isSome ++ String.join blocks ++ closing), context) := by
  cases hFind : query.keys.find? fun id => (dataSource id).isNone with
  | some id => exact dataFile_unknown hBuster hFind context
  | none =>
      have hKnown : ∀ entry ∈ query.entries, (dataSource entry.1).isSome = true := by
        intro entry hEntry
        have hNot := List.find?_eq_none.1 hFind entry.1 (List.mem_map_of_mem hEntry)
        simpa [Option.isNone_iff_eq_none, Option.isSome_iff_ne_none] using hNot
      obtain ⟨fetches, next, hRun, rfl, hAll⟩ := fetchAll_run options (· = context)
        (fun {source query before fetch next} hBefore hFetch => by
          have hNext := fetchSource_keeps (ε := PublishError) hBuster source query before
          rw [hFetch] at hNext
          exact hNext.trans hBefore) hKnown context rfl
      refine ⟨fetches, _, ?_, forall₂_isIndented fetches, dataFile_run hRun⟩
      refine hAll.imp fun entry fetch hEntry => ?_
      obtain ⟨source, before, after, hSource, rfl, rfl, hFetch⟩ := hEntry
      refine ⟨source, hSource, hFetch, fun hOther => ?_⟩
      have hText := fetchSource_eq_ok hFetch
      rw [hOther] at hText
      exact hText

/-- Three data sources, one of which does not understand queries. -/
def threeSources (id : String) : Option DataSource :=
  some { id := id, kind := if id = "files" then .other else .graphql }

/-- A page that queries two services, one with an empty line in its query, and a source that gets no
request. -/
theorem threeQueries_covered :
    ({ cacheBuster := .build } : Options).cacheBuster ≠ .random ∧
      ∃ first firstBlock last lastBlock,
        (dataFile { cacheBuster := .build } threeSources
            (.ofList [("cms", "\x7b a\n\n  b \x7d"), ("files", "q"), ("shop", "c")])).runIn
            (Context.start {} 7 []) =
          (.ok (opening false ++ (firstBlock ++ lastBlock) ++ closing), Context.start {} 7 []) ∧
        (fetchSource (ε := PublishError) { cacheBuster := .build } { id := "cms" }
            "\x7b a\n\n  b \x7d").runIn (Context.start {} 7 []) =
          (.ok first, Context.start {} 7 []) ∧
        IsIndented first firstBlock ∧
        (fetchSource (ε := PublishError) { cacheBuster := .build } { id := "shop" } "c").runIn
            (Context.start {} 7 []) =
          (.ok last, Context.start {} 7 []) ∧
        IsIndented last lastBlock := by
  refine ⟨by decide, ?_⟩
  obtain ⟨fetches, blocks, hAll, hBlocks, hRun⟩ := dataFile_covers
    (show ({ cacheBuster := .build } : Options).cacheBuster ≠ .random by decide) threeSources
    (.ofList [("cms", "\x7b a\n\n  b \x7d"), ("files", "q"), ("shop", "c")])
    (Context.start {} 7 [])
  obtain ⟨first, more, ⟨cms, hCms, hFirst, -⟩, hMore, rfl⟩ := List.forall₂_cons_left_iff.1 hAll
  obtain ⟨skipped, others, ⟨source, hFiles, -, hNone⟩, hLast, rfl⟩ :=
    List.forall₂_cons_left_iff.1 hMore
  obtain ⟨last, noneLeft, ⟨shop, hShop, hFetch, -⟩, hEnd, rfl⟩ := List.forall₂_cons_left_iff.1 hLast
  obtain rfl := List.forall₂_nil_left_iff.1 hEnd
  obtain rfl : skipped = "" := hNone (by rw [← Option.some.inj hFiles]; rfl)
  obtain rfl := Option.some.inj hCms
  obtain rfl := Option.some.inj hShop
  obtain ⟨firstBlock, moreBlocks, hFirstBlock, hMoreBlocks, rfl⟩ :=
    List.forall₂_cons_left_iff.1 hBlocks
  obtain ⟨noBlock, otherBlocks, hNoBlock, hOtherBlocks, rfl⟩ :=
    List.forall₂_cons_left_iff.1 hMoreBlocks
  obtain ⟨lastBlock, noneBehind, hLastBlock, hEndBlocks, rfl⟩ :=
    List.forall₂_cons_left_iff.1 hOtherBlocks
  obtain rfl := List.forall₂_nil_left_iff.1 hEndBlocks
  obtain rfl := hNoBlock.eq_empty
  refine ⟨first, firstBlock, last, lastBlock, ?_, hFirst, hFirstBlock, hFetch, hLastBlock⟩
  rw [hRun]
  simp [String.join_cons]

end PagePress.DataFile
