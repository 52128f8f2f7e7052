import PagePress.Proofs.Grammar
import PagePress.Proofs.StoredText

/-!
# What a setting holds

Every text of a setting has one of four outcomes. Blanks and an empty list are no setting, a text
that does not look stored is itself, and of stored expressions the grammar decides which are
settings and which are errors. The shape of the trimmed text tells the first two apart from the
rest: the reader of JSON finds an empty list only between brackets with nothing but white space
between them.

A printed expression starts and ends with a bracket, so blanks around it are trimmed and the reader
gets the text that was printed.

## Main results

* `Text.trim_eq_empty_iff`, `Text.trim_surrounded` — what trimming leaves of blanks, and of a text
  between blanks.
* `Json.isEmptyList_of_read`, `Json.read_of_isEmptyList` — the texts of an empty list.
* `parseSetting_eq_text_iff`, `parseSetting_eq_expression_iff` — which settings are texts, and which
  are expressions.
* `parseSetting_classifies` — all outcomes together, and the settings that hold printed expressions.
-/

namespace PagePress

/-! ## Trimming -/

namespace Text

/-- Trimming leaves nothing of blanks, and only of blanks. -/
theorem trim_eq_empty_iff (text : String) : trim text = "" ↔ isBlankText text = true := by
  have hSplit := List.takeWhile_append_dropWhile (p := isBlank) (l := text.toList)
  have hBlank : (∀ c ∈ text.toList.dropWhile isBlank, isBlank c = true) ↔
      ∀ c ∈ text.toList, isBlank c = true := by
    constructor
    · intro h c hc
      rw [← hSplit, List.mem_append] at hc
      rcases hc with hTaken | hDropped
      · exact List.mem_takeWhile_imp hTaken
      · exact h c hDropped
    · intro h c hc
      exact h c ((List.dropWhile_sublist isBlank).subset hc)
  rw [← String.toList_inj, trim, String.toList_ofList, trimList, trimEnd_eq, isBlankText,
    List.all_eq_true, ← hBlank]
  exact List.rdropWhile_eq_nil_iff

/-- Trimming takes away the blanks around a text that has none at its ends. -/
theorem trim_surrounded {before text after : String} {first last : Char} {inner : List Char}
    (hBefore : isBlankText before = true) (hAfter : isBlankText after = true)
    (hText : text.toList = first :: (inner ++ [last])) (hFirst : isBlank first = false)
    (hLast : isBlank last = false) : trim (before ++ text ++ after) = text := by
  have hStart : (before.toList ++ (text.toList ++ after.toList)).dropWhile isBlank =
      text.toList ++ after.toList := by
    rw [List.dropWhile_append_of_pos (List.all_eq_true.1 hBefore), hText, List.cons_append,
      List.dropWhile_cons_of_neg (by simp [hFirst])]
  have hEnd : trimEnd (text.toList ++ after.toList) = text.toList := by
    rw [trimEnd_append_blank (List.all_eq_true.1 hAfter), hText, ← List.cons_append, trimEnd_eq,
      List.rdropWhile_concat_neg _ _ _ (by simp [hLast])]
  rw [trim, trimList, String.toList_append, String.toList_append, List.append_assoc, hStart, hEnd,
    String.ofList_toList]

end Text

/-! ## Texts of empty lists -/

namespace Json

/-- Brackets with nothing but white space between them. -/
def IsEmptyList (text : String) : Prop :=
  ∃ spaces : List Char, (∀ c ∈ spaces, isSpace c = true) ∧ text.toList = '[' :: (spaces ++ [']'])

/-- White space, as much as the reader skips, and what is left. -/
theorem exists_spaces (cs : List Char) :
    ∃ spaces : List Char, (∀ c ∈ spaces, isSpace c = true) ∧ cs = spaces ++ skipSpaces cs :=
  ⟨cs.takeWhile isSpace, fun _ hc => List.mem_takeWhile_imp hc,
    List.takeWhile_append_dropWhile.symm⟩

/-- No items are read where the list is closed. -/
theorem skipSpaces_of_readItems {fuel depth : Nat} {cs rest : List Char}
    (h : readItems fuel depth cs = .ok ([], rest)) : skipSpaces cs = ']' :: rest := by
  cases fuel with
  | zero =>
      rw [readItems] at h
      cases h
  | succ fuel =>
      rw [readItems] at h
      split at h
      case h_1 more hCs =>
        cases h
        exact hCs
      case h_2 =>
        obtain ⟨item, -, hItems⟩ := exists_of_bind_eq_ok h
        obtain ⟨items, -, hCons⟩ := exists_of_bind_eq_ok hItems
        cases hCons

theorem nested_eq_array {depth : Nat} {items others : List Json}
    (h : nested depth (.array items) = .array others) : items = others := by
  unfold nested at h
  split at h <;> cases h
  rfl

/-- An empty list is read from two brackets. -/
theorem brackets_of_readValue {fuel depth : Nat} {cs rest : List Char}
    (h : readValue fuel depth cs = .ok (.array [], rest)) :
    ∃ more, skipSpaces cs = '[' :: more ∧ skipSpaces more = ']' :: rest := by
  obtain ⟨more, hOpen⟩ := readValue_array h
  refine ⟨more, hOpen, ?_⟩
  cases fuel with
  | zero =>
      rw [readValue] at h
      cases h
  | succ fuel =>
      simp only [readValue, hOpen] at h
      obtain ⟨⟨items, after⟩, hItems, hArray⟩ := exists_of_bind_eq_ok h
      have hPair := Except.ok.inj hArray
      obtain rfl : items = [] := nested_eq_array (congrArg Prod.fst hPair)
      obtain rfl : after = rest := congrArg Prod.snd hPair
      exact skipSpaces_of_readItems hItems

theorem isBlankText_of_spaces {spaces : List Char} (h : ∀ c ∈ spaces, isSpace c = true) :
    Text.isBlankText (String.ofList spaces) = true := by
  rw [Text.isBlankText, String.toList_ofList, List.all_eq_true]
  exact fun c hc => isBlank_of_isSpace (h c hc)

/-- A text that reads as an empty list is one, but for the blanks around it. -/
theorem isEmptyList_of_read {text : String} (h : Json.read text = .ok (.array [])) :
    IsEmptyList (Text.trim text) := by
  obtain ⟨⟨json, rest⟩, hValue, hEnd⟩ := exists_of_bind_eq_ok h
  dsimp only at hEnd
  split at hEnd
  case isFalse => cases hEnd
  case isTrue hRest =>
    cases hEnd
    obtain ⟨more, hOpen, hClose⟩ := brackets_of_readValue hValue
    obtain ⟨before, hBefore, hText⟩ := exists_spaces text.toList
    obtain ⟨spaces, hSpaces, hMore⟩ := exists_spaces more
    obtain ⟨after, hAfter, hTail⟩ := exists_spaces rest
    rw [List.isEmpty_iff.1 hRest, List.append_nil] at hTail
    have hParts : text = String.ofList before ++ String.ofList ('[' :: (spaces ++ [']'])) ++
        String.ofList after := by
      rw [← String.toList_inj, hText, hOpen, hMore, hClose, hTail]
      simp
    rw [hParts, Text.trim_surrounded (isBlankText_of_spaces hBefore)
      (isBlankText_of_spaces hAfter) String.toList_ofList (by decide) (by decide)]
    exact ⟨spaces, hSpaces, String.toList_ofList⟩

theorem read_of_isEmptyList {text : String} (h : IsEmptyList text) :
    Json.read text = .ok (.array []) := by
  obtain ⟨spaces, hSpaces, hText⟩ := h
  have hOpen : skipSpaces ('[' :: (spaces ++ [']'])) = '[' :: (spaces ++ [']']) := rfl
  have hClose : skipSpaces (spaces ++ [']']) = [']'] := List.dropWhile_append_of_pos hSpaces
  have hItems : ∀ fuel, readItems (fuel + 1) 1 (spaces ++ [']']) = .ok ([], []) := by
    intro fuel
    simp only [readItems, hClose]
  rw [Json.read]
  simp only [hText]
  rw [readValue]
  simp only [hOpen]
  rw [Nat.zero_add, hItems]
  rfl

theorem read_eq_emptyArray_iff (text : String) :
    Json.read (Text.trim text) = .ok (.array []) ↔ IsEmptyList (Text.trim text) := by
  constructor
  · intro h
    rw [← Text.trim_trim]
    exact isEmptyList_of_read h
  · exact read_of_isEmptyList

/-- Both printed texts of a list stand between brackets. -/
theorem exists_between_brackets (items : List Json) {text : String}
    (h : text ∈ [(Json.array items).compact, (Json.array items).wide]) :
    ∃ inner, text.toList = '[' :: (inner ++ [']']) := by
  rcases List.mem_pair.1 h with rfl | rfl
  · exact ⟨(",".intercalate (compactItems items)).toList, by simp [compact]⟩
  · rw [wide, wideAt]
    cases wideItems 1 items with
    | nil => exact ⟨[], rfl⟩
    | cons part parts =>
        exact ⟨(lineBreak 1 ++ ("," ++ lineBreak 1).intercalate (part :: parts) ++
          lineBreak 0).toList, by simp [bracketed]⟩

end Json

/-! ## Expressions in texts -/

/-- A property or a state, then properties, then filters. -/
def Expression.IsGrammatical (expression : Expression) : Prop :=
  ∃ head path filters, head.isFilter = false ∧ expression = chain head path filters

/-- Only an empty list reads as an expression without tokens. -/
theorem Expression.read_eq_nil_iff (text : String) :
    Expression.read text = .ok [] ↔ Json.read text = .ok (.array []) := by
  constructor
  · intro h
    obtain ⟨json, hJson, hTokens⟩ := exists_of_bind_eq_ok h
    obtain ⟨items, rfl⟩ := Json.array_of_asList hTokens
    cases items with
    | nil => exact hJson
    | cons item items =>
        rw [Expression.ofJson, Json.asList, List.mapM_cons] at hTokens
        obtain ⟨token, -, hRest⟩ := exists_of_bind_eq_ok hTokens
        obtain ⟨tokens, -, hCons⟩ := exists_of_bind_eq_ok hRest
        cases hCons
  · intro h
    rw [Expression.read, h]
    rfl

theorem looksStored_eq_false_iff (text : String) :
    looksStored text = false ↔
      text.toList.head? ≠ some '[' ∧ text.toList.head? ≠ some '\x7b' := by
  unfold looksStored
  split
  · rename_i rest hText
    simp [hText]
  · rename_i rest hText
    simp [hText]
  · rename_i hBracket hBrace
    cases hText : text.toList with
    | nil => simp
    | cons c rest =>
        simp only [List.head?_cons, ne_eq, Option.some_inj, true_iff]
        constructor
        · rintro rfl
          exact hBracket rest hText
        · rintro rfl
          exact hBrace rest hText

/-! ## Outcomes -/

variable {name raw : String} {expression : Expression}

/-- Blanks and an empty list are no setting. -/
theorem parseSetting_eq_nothing_iff :
    parseSetting name raw = .ok none ↔
      Text.isBlankText raw = true ∨ Json.IsEmptyList (Text.trim raw) := by
  rw [parseSetting_eq_none_iff, Text.trim_eq_empty_iff, Expression.read_eq_nil_iff,
    Json.read_eq_emptyArray_iff]

/-- A text is a setting when it has characters and the first one is no bracket and no brace. -/
theorem parseSetting_eq_text_iff {text : String} :
    parseSetting name raw = .ok (some (.text text)) ↔
      text = Text.trim raw ∧ text ≠ "" ∧
        text.toList.head? ≠ some '[' ∧ text.toList.head? ≠ some '\x7b' := by
  rw [parseSetting_eq_ok_iff, ← looksStored_eq_false_iff]
  constructor
  · intro h
    cases h with
    | text hSome hPlain => exact ⟨rfl, hSome, hPlain⟩
  · rintro ⟨rfl, hSome, hPlain⟩
    exact .text hSome hPlain

/-- An expression is a setting when the text says it and the grammar accepts it. -/
theorem parseSetting_eq_expression_iff :
    parseSetting name raw = .ok (some (.expression expression)) ↔
      Expression.read (Text.trim raw) = .ok expression ∧ expression.IsGrammatical := by
  rw [parseSetting_eq_ok_iff, Expression.IsGrammatical, ← Expression.check_eq_ok_iff]
  constructor
  · intro h
    cases h with
    | expression hRead hCheck => exact ⟨hRead, hCheck⟩
  · rintro ⟨hRead, hCheck⟩
    exact .expression hRead hCheck

/-- Tokens that break the grammar are an error of the setting. -/
theorem parseSetting_of_ungrammatical (hRead : Expression.read (Text.trim raw) = .ok expression)
    (hTokens : expression ≠ []) {error : ExpressionError}
    (hCheck : expression.check = .error error) :
    parseSetting name raw = .error (.invalidSetting name (.ungrammatical error.message)) := by
  cases expression with
  | nil => exact absurd rfl hTokens
  | cons token rest =>
      rw [parseSetting, parseTrimmed_of_read hRead, parseStored, hRead]
      simp only [hCheck]

/-- The expression is read from its printed text with blanks around it. -/
theorem Expression.read_surrounded {before text after : String}
    (hBefore : Text.isBlankText before = true) (hAfter : Text.isBlankText after = true)
    (hText : text ∈ [expression.toJson.compact, expression.toJson.wide])
    (hJson : Json.read text = .ok expression.toJson) :
    Expression.read (Text.trim (before ++ text ++ after)) = .ok expression := by
  obtain ⟨inner, hBrackets⟩ := Json.exists_between_brackets _ hText
  rw [Text.trim_surrounded hBefore hAfter hBrackets (by decide) (by decide)]
  exact Expression.read_of_text hJson

/-- What becomes of the text of a setting. The text counts without the blanks around it; nothing is
held by blanks and by an empty list, a text by what has another start than a stored expression, and
an expression by what reads as one of the grammar. The printed text of an expression with tokens,
as far as reading gives back what was printed, holds the expression or is refused with what the
grammar has against it. -/
theorem parseSetting_classifies (name raw : String) :
    (∀ other, Text.trim other = Text.trim raw →
      parseSetting name other = parseSetting name raw) ∧
    (parseSetting name raw = .ok none ↔
      Text.isBlankText raw = true ∨ Json.IsEmptyList (Text.trim raw)) ∧
    (∀ text, parseSetting name raw = .ok (some (.text text)) ↔
      text = Text.trim raw ∧ text ≠ "" ∧
        text.toList.head? ≠ some '[' ∧ text.toList.head? ≠ some '\x7b') ∧
    (∀ expression, parseSetting name raw = .ok (some (.expression expression)) ↔
      Expression.read (Text.trim raw) = .ok expression ∧ expression.IsGrammatical) ∧
    ∀ expression : Expression, expression ≠ [] →
      ∀ text ∈ [expression.toJson.compact, expression.toJson.wide],
        Json.read text = .ok expression.toJson →
        ∀ before after, Text.isBlankText before = true → Text.isBlankText after = true →
          raw = before ++ text ++ after →
          (expression.IsGrammatical →
            parseSetting name raw = .ok (some (.expression expression))) ∧
          (¬ expression.IsGrammatical → ∃ error, expression.check = .error error ∧
            parseSetting name raw =
              .error (.invalidSetting name (.ungrammatical error.message))) := by
  refine ⟨fun other h => parseSetting_trim h, parseSetting_eq_nothing_iff,
    fun text => parseSetting_eq_text_iff, fun expression => parseSetting_eq_expression_iff, ?_⟩
  intro expression hTokens text hText hJson before after hBefore hAfter hRaw
  have hRead : Expression.read (Text.trim raw) = .ok expression := by
    rw [hRaw]
    exact Expression.read_surrounded hBefore hAfter hText hJson
  constructor
  · intro hGrammar
    exact parseSetting_eq_expression_iff.2 ⟨hRead, hGrammar⟩
  · intro hBroken
    cases hCheck : expression.check with
    | ok accepted => exact absurd ((Expression.check_eq_ok_iff expression).1 hCheck) hBroken
    | error error => exact ⟨error, rfl, parseSetting_of_ungrammatical hRead hTokens hCheck⟩

/-- The title of the entries of a data source. -/
def titleTokens : Expression := [.property ⟨"title", "", some "cms", [], .scalar, none⟩]

/-- A filter without anything to filter. -/
def loneFilter : Expression := [.filter ⟨"first", "", .empty⟩]

set_option maxRecDepth 8000 in
/-- Both expressions are read from their printed text between blanks; the title is the setting, and
the filter is refused. -/
theorem title_held_filter_refused :
    parseSetting "permalink" ("\n " ++ titleTokens.toJson.compact ++ " ") =
        .ok (some (.expression titleTokens)) ∧
      parseSetting "permalink" ("\n " ++ loneFilter.toJson.wide ++ " ") =
        .error (.invalidSetting "permalink"
          (.ungrammatical "Expression cannot start with a filter")) := by
  have hTitle : Json.read titleTokens.toJson.compact = .ok titleTokens.toJson := by
    with_unfolding_all rfl
  have hFilter : Json.read loneFilter.toJson.wide = .ok loneFilter.toJson := by
    with_unfolding_all rfl
  constructor
  · obtain ⟨-, -, -, -, hPrinted⟩ := parseSetting_classifies "permalink"
      ("\n " ++ titleTokens.toJson.compact ++ " ")
    obtain ⟨hHeld, -⟩ := hPrinted titleTokens (by decide) _ List.mem_cons_self hTitle "\n " " "
      (by decide) (by decide) rfl
    exact hHeld ⟨_, [], [], rfl, rfl⟩
  · obtain ⟨-, -, -, -, hPrinted⟩ := parseSetting_classifies "permalink"
      ("\n " ++ loneFilter.toJson.wide ++ " ")
    obtain ⟨-, hRefused⟩ := hPrinted loneFilter (by decide) _ (by simp) hFilter "\n " " "
      (by decide) (by decide) rfl
    have hBroken : ¬ loneFilter.IsGrammatical := by
      intro hGrammar
      cases (Expression.check_eq_ok_iff loneFilter).2 hGrammar
    obtain ⟨error, hCheck, hOutcome⟩ := hRefused hBroken
    cases hCheck
    exact hOutcome

end PagePress
