import Mathlib.Data.List.Forall2
import PagePress.Proofs.Grammar

/-!
# Fixed values

A fixed value stands in a path as a string literal. A literal ends at the next quote of the kind
that starts it, so its content must not have that quote. A text with one kind of quote goes between
quotes of the other kind as it is; a text with both kinds goes between double quotes, with an entity
for each double quote of its own.

## Main results

* `toList_quote`, `quoteMark_not_mem` — the quotes of a literal and what stands between them.
* `readLiteral_quote` — a reader sees one literal.
* `forall₂_of_path` — the steps of a path, token by token.
* `path_fixed` — the steps of fixed values in paths.
-/

namespace PagePress.Expression

variable {tokens : Expression} {text : String}

/-! ## Literals -/

/-- The quote around a text: the single one when the text has double quotes only. -/
def quoteMark (text : String) : Char :=
  if '"' ∈ text.toList ∧ '\'' ∉ text.toList then '\'' else '"'

/-- What stands between the quotes: the text, and an entity for each double quote of it when it has
both quotes. -/
def quotedContent (text : String) : List Char :=
  if '"' ∈ text.toList ∧ '\'' ∈ text.toList then
    text.toList.flatMap fun c => if c = '"' then "&quot;".toList else [c]
  else text.toList

/-- The content of the string literal that a text starts with, and what stands behind it. Either
quote starts a literal, the next quote of that kind ends it, and there are no escapes. -/
def readLiteral : List Char → Option (List Char × List Char)
  | [] => none
  | mark :: cs =>
    if (mark = '"' ∨ mark = '\'') ∧ mark ∈ cs then
      some (cs.takeWhile (· ≠ mark), (cs.dropWhile (· ≠ mark)).drop 1)
    else none

theorem quoteMark_cases (text : String) : quoteMark text = '"' ∨ quoteMark text = '\'' := by
  unfold quoteMark
  split
  · exact .inr rfl
  · exact .inl rfl

theorem toList_quote (text : String) :
    (quote text).toList = quoteMark text :: (quotedContent text ++ [quoteMark text]) := by
  have hDouble : text.toList.contains '"' = decide ('"' ∈ text.toList) := List.contains_eq_mem _ _
  have hSingle : text.toList.contains '\'' = decide ('\'' ∈ text.toList) := List.contains_eq_mem _ _
  rw [quote, hDouble, hSingle, quoteMark, quotedContent]
  by_cases hD : '"' ∈ text.toList
  · by_cases hS : '\'' ∈ text.toList
    · simp [hD, hS, Text.escapeDoubleQuotes]
    · simp [hD, hS]
  · simp [hD]

/-- With an entity for each double quote there is no double quote left. -/
theorem double_not_mem_escaped (cs : List Char) :
    '"' ∉ cs.flatMap fun c => if c = '"' then "&quot;".toList else [c] := by
  intro hMem
  obtain ⟨c, -, hChar⟩ := List.mem_flatMap.1 hMem
  split at hChar
  · exact absurd hChar (by decide)
  · rename_i hOther
    exact hOther (List.mem_singleton.1 hChar).symm

/-- The quote around a text does not stand in its content. -/
theorem quoteMark_not_mem (text : String) : quoteMark text ∉ quotedContent text := by
  by_cases hDouble : '"' ∈ text.toList
  · by_cases hSingle : '\'' ∈ text.toList
    · have hMark : quoteMark text = '"' := if_neg fun h => h.2 hSingle
      rw [hMark, quotedContent, if_pos ⟨hDouble, hSingle⟩]
      exact double_not_mem_escaped _
    · have hMark : quoteMark text = '\'' := if_pos ⟨hDouble, hSingle⟩
      rw [hMark, quotedContent, if_neg fun h => hSingle h.2]
      exact hSingle
  · have hMark : quoteMark text = '"' := if_neg fun h => hDouble h.1
    rw [hMark, quotedContent, if_neg fun h => hDouble h.1]
    exact hDouble

theorem readLiteral_append {mark : Char} (hMark : mark = '"' ∨ mark = '\'') {content : List Char}
    (h : mark ∉ content) (rest : List Char) :
    readLiteral (mark :: (content ++ mark :: rest)) = some (content, rest) := by
  have hOther : ∀ c ∈ content, decide (c ≠ mark) = true :=
    fun c hc => decide_eq_true fun hSame => h (hSame ▸ hc)
  rw [readLiteral, if_pos ⟨hMark, List.mem_append_right _ List.mem_cons_self⟩,
    List.takeWhile_append_of_pos hOther, List.dropWhile_append_of_pos hOther,
    List.takeWhile_cons_of_neg (by simp), List.dropWhile_cons_of_neg (by simp), List.append_nil,
    List.drop_one, List.tail_cons]

/-- A reader that meets a quoted text sees one literal and nothing of it is left. -/
theorem readLiteral_quote (text : String) (rest : List Char) :
    readLiteral ((quote text).toList ++ rest) = some (quotedContent text, rest) := by
  rw [toList_quote, List.cons_append, List.append_assoc]
  exact readLiteral_append (quoteMark_cases text) (quoteMark_not_mem text) rest

/-! ## Paths -/

/-- Where every value is mapped without an error, the results stand in the places of the values. -/
theorem forall₂_of_mapM {α β ε : Type} {f : α → Except ε β} {values : List α} {results : List β}
    (h : values.mapM f = .ok results) :
    List.Forall₂ (fun value result => f value = .ok result) values results := by
  induction values generalizing results with
  | nil =>
      cases h
      exact .nil
  | cons value values ih =>
      rw [List.mapM_cons] at h
      obtain ⟨first, hFirst, h⟩ := exists_of_bind_eq_ok h
      obtain ⟨others, hOthers, h⟩ := exists_of_bind_eq_ok h
      cases h
      exact .cons hFirst (ih hOthers)

/-- A path has a step for each of its tokens, in order, and the step of a property is the same
wherever it stands. -/
theorem forall₂_of_path (h : path tokens = .ok text) :
    ∃ steps, text = ".".intercalate steps ∧
      List.Forall₂ (fun token step => ∀ p, token = .property p → step = propertyStep p)
        tokens steps := by
  have hProperty : ∀ {first : Bool} {token : Token} {step : String},
      pathStep tokens first token = .ok step →
        ∀ p, token = .property p → step = propertyStep p := by
    rintro first token step hStep p rfl
    exact (Except.ok.inj hStep).symm
  rw [path] at h
  cases hSteps : pathSteps tokens with
  | error e =>
      rw [hSteps] at h
      cases h
  | ok steps =>
      rw [hSteps] at h
      refine ⟨steps, (Except.ok.inj h).symm, ?_⟩
      cases tokens with
      | nil =>
          cases hSteps
          exact .nil
      | cons head rest =>
          obtain ⟨first, hFirst, hSteps⟩ := exists_of_bind_eq_ok hSteps
          obtain ⟨others, hOthers, hSteps⟩ := exists_of_bind_eq_ok hSteps
          cases hSteps
          exact .cons (hProperty hFirst) ((forall₂_of_mapM hOthers).imp fun _ _ => hProperty)

/-- The step of a fixed value starts and ends with one quote, which does not stand between them. So
a reader of literals, whatever comes behind the step, sees one literal and stops where the step
ends. The content is the text of the value; only when that has both quotes it has entities for its
double quotes. Alone the value is a path, and in every path its step stands in its place. -/
theorem path_fixed (p : Property) (hFixed : p.isFixed = true) :
    ∃ (step : String) (mark : Char) (content : List Char), (mark = '"' ∨ mark = '\'') ∧
      mark ∉ content ∧ step.toList = mark :: (content ++ [mark]) ∧
      (∀ rest, readLiteral (step.toList ++ rest) = some (content, rest)) ∧
      content = (if '"' ∈ p.fixedText.toList ∧ '\'' ∈ p.fixedText.toList then
          p.fixedText.toList.flatMap fun c => if c = '"' then "&quot;".toList else [c]
        else p.fixedText.toList) ∧
      path [.property p] = .ok step ∧
      ∀ (tokens : Expression) (text : String), path tokens = .ok text →
        ∃ steps, text = ".".intercalate steps ∧
          List.Forall₂ (fun token other => token = .property p → other = step) tokens steps := by
  have hStep : propertyStep p = quote p.fixedText := if_pos hFixed
  refine ⟨quote p.fixedText, quoteMark p.fixedText, quotedContent p.fixedText,
    quoteMark_cases _, quoteMark_not_mem _, toList_quote _, readLiteral_quote _, rfl, ?_, ?_⟩
  · have hAlone := pathSteps_properties (show (Token.property p).isFilter = false from rfl) []
    rw [path, ← hStep]
    exact congrArg (Except.map fun steps => ".".intercalate steps) hAlone
  · intro tokens text hPath
    obtain ⟨steps, hText, hTokens⟩ := forall₂_of_path hPath
    exact ⟨steps, hText, hTokens.imp fun _ _ h hToken => (h p hToken).trans hStep⟩

/-- A fixed value with both quotes. -/
def bothQuotes : Property :=
  ⟨fixedId, "", none, [], .scalar, some (.ofList [("value", .string "it's \"x\"")])⟩

/-- It is published with entities, and a filter behind it is no part of it. -/
theorem bothQuotes_path :
    bothQuotes.isFixed = true ∧ path [.property bothQuotes] = .ok "\"it's &quot;x&quot;\"" ∧
      readLiteral "\"it's &quot;x&quot;\" | size".toList =
        some ("it's &quot;x&quot;".toList, " | size".toList) := by
  have hFixed : bothQuotes.isFixed = true := by decide
  obtain ⟨step, mark, content, -, -, -, hRead, hContent, hAlone, -⟩ := path_fixed bothQuotes hFixed
  have hStep : path [.property bothQuotes] = .ok "\"it's &quot;x&quot;\"" := by decide +kernel
  obtain rfl := Except.ok.inj (hAlone.symm.trans hStep)
  have hText : content = "it's &quot;x&quot;".toList := hContent.trans (by decide +kernel)
  exact ⟨hFixed, hStep, hText ▸ hRead " | size".toList⟩

end PagePress.Expression
