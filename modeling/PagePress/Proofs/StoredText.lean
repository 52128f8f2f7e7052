import PagePress.Proofs.FrontMatter
import PagePress.Proofs.Stored.Expressions

/-!
# Settings whose text is an expression

A setting holds a stored expression when its text starts with a bracket or a brace, and the reader
of JSON decides what the text says. The two agree: an expression is a list, and only a bracket opens
a list. So what becomes of a setting whose text reads as an expression depends on the expression
alone, and an expression without tokens is no setting at all.

## Main results

* `readValue_array` — only a bracket opens a list.
* `parseSetting_of_noTokens`, `parseSetting_of_read` — settings that hold an expression without
  tokens, and one of the grammar.
* `parseSetting_eq_ok_iff` — the settings that can be read, and what they hold.
-/

namespace PagePress

/-! ## Texts of lists -/

namespace Json

theorem isBlank_of_isSpace {c : Char} (h : isSpace c = true) : Text.isBlank c = true := by
  simp only [isSpace, Bool.or_eq_true, decide_eq_true_eq] at h
  rcases h with ((rfl | rfl) | rfl) | rfl <;> decide

/-- The reader skips nothing at the start of a trimmed text. -/
theorem skipSpaces_of_trimmed {cs : List Char} (h : cs.dropWhile Text.isBlank = cs) :
    skipSpaces cs = cs := by
  rw [skipSpaces, List.dropWhile_eq_self_iff]
  rw [List.dropWhile_eq_self_iff] at h
  exact fun hSome hSpace => h hSome (isBlank_of_isSpace hSpace)

theorem nested_object_ne_array (depth : Nat) (members : List (String × Json)) (items : List Json) :
    nested depth (.object members) ≠ .array items := by
  intro h
  unfold nested at h
  split at h <;> cases h

theorem meaning_ne_array (literal : Literal) (items : List Json) :
    literal.meaning ≠ .array items := by
  intro h
  unfold Literal.meaning at h
  split at h
  · cases h
  · dsimp only at h
    split at h <;> cases h

/-- Only a bracket opens a list. -/
theorem readValue_array {fuel depth : Nat} {cs rest : List Char} {items : List Json}
    (h : readValue fuel depth cs = .ok (.array items, rest)) :
    ∃ more, skipSpaces cs = '[' :: more := by
  cases fuel with
  | zero =>
      rw [readValue] at h
      cases h
  | succ fuel =>
      rw [readValue] at h
      split at h
      case h_1 =>
        obtain ⟨⟨units, more⟩, -, hText⟩ := exists_of_bind_eq_ok h
        dsimp only at hText
        split at hText <;> cases hText
      case h_2 more hCs => exact ⟨more, hCs⟩
      case h_3 =>
        obtain ⟨⟨members, more⟩, -, hObject⟩ := exists_of_bind_eq_ok h
        dsimp only at hObject
        split at hObject
        · exact absurd (congrArg Prod.fst (Except.ok.inj hObject)) (nested_object_ne_array _ _ _)
        · cases hObject
      case h_4 => cases h
      case h_5 => cases h
      case h_6 => cases h
      case h_7 =>
        obtain ⟨⟨literal, more⟩, -, hMeaning⟩ := exists_of_bind_eq_ok h
        exact absurd (congrArg Prod.fst (Except.ok.inj hMeaning)) (meaning_ne_array _ _)

/-- The text of a list starts with its bracket. -/
theorem bracket_of_read {text : String} {items : List Json}
    (hTrimmed : text.toList.dropWhile Text.isBlank = text.toList)
    (h : Json.read text = .ok (.array items)) : ∃ more, text.toList = '[' :: more := by
  obtain ⟨⟨json, rest⟩, hValue, hEnd⟩ := exists_of_bind_eq_ok h
  dsimp only at hEnd
  split at hEnd
  · cases hEnd
    rw [← skipSpaces_of_trimmed hTrimmed]
    exact readValue_array hValue
  · cases hEnd

theorem array_of_asList {α : Type} {item : Json → Except Error α} {json : Json} {values : List α}
    (h : asList item json = .ok values) : ∃ items, json = .array items := by
  cases json with
  | array items => exact ⟨items, rfl⟩
  | _ => cases h

end Json

/-- A text whose JSON is that of an expression reads as the expression. -/
theorem Expression.read_of_text {text : String} {expression : Expression}
    (h : Json.read text = .ok expression.toJson) : Expression.read text = .ok expression := by
  rw [Expression.read, h]
  exact readsBack_expression expression

/-! ## Settings -/

variable {name raw : String} {expression : Expression}

/-- A trimmed text that reads as an expression is taken for one. -/
theorem parseTrimmed_of_read (hRead : Expression.read (Text.trim raw) = .ok expression) :
    parseTrimmed (Text.trim raw) = parseStored (Text.trim raw) := by
  obtain ⟨json, hJson, hList⟩ := exists_of_bind_eq_ok hRead
  obtain ⟨items, rfl⟩ := Json.array_of_asList hList
  have hTrimmed : (Text.trim raw).toList.dropWhile Text.isBlank = (Text.trim raw).toList := by
    rw [Text.trim, String.toList_ofList, Text.dropWhile_trimList]
  obtain ⟨more, hBracket⟩ := Json.bracket_of_read hTrimmed hJson
  have hSome : (Text.trim raw).isEmpty = false := by
    cases hEmpty : (Text.trim raw).isEmpty with
    | false => rfl
    | true =>
        rw [String.isEmpty_iff.1 hEmpty] at hBracket
        cases hBracket
  have hLooks : looksStored (Text.trim raw) = true := by simp only [looksStored, hBracket]
  rw [parseTrimmed, if_neg (by simp [hSome]), if_pos hLooks]

/-- An expression without tokens is no setting. -/
theorem parseSetting_of_noTokens (hRead : Expression.read (Text.trim raw) = .ok []) :
    parseSetting name raw = .ok none := by
  rw [parseSetting, parseTrimmed_of_read hRead, parseStored, hRead]

/-- An expression of the grammar is the setting that it is stored in. -/
theorem parseSetting_of_read (hRead : Expression.read (Text.trim raw) = .ok expression)
    (hCheck : expression.check = .ok ()) :
    parseSetting name raw = .ok (some (.expression expression)) := by
  cases expression with
  | nil => cases hCheck
  | cons token rest =>
      rw [parseSetting, parseTrimmed_of_read hRead, parseStored, hRead]
      simp only [hCheck]

/-- Settings that can be read are decided by their trimmed text. -/
theorem parseSetting_eq_ok_iff {held : Option StoredSetting} :
    parseSetting name raw = .ok held ↔ Holds (Text.trim raw) held := by
  constructor
  · exact holds_of_parseSetting
  · intro h
    cases h with
    | nothing hNothing =>
        rcases hNothing with hBlank | hRead
        · rw [parseSetting, hBlank]
          rfl
        · exact parseSetting_of_noTokens hRead
    | text hSome hPlain =>
        rw [parseSetting, parseTrimmed, if_neg fun hEmpty => hSome (String.isEmpty_iff.1 hEmpty),
          hPlain]
        rfl
    | expression hRead hCheck => exact parseSetting_of_read hRead hCheck

/-- Only blanks and an expression without tokens are no setting. -/
theorem parseSetting_eq_none_iff :
    parseSetting name raw = .ok none ↔
      Text.trim raw = "" ∨ Expression.read (Text.trim raw) = .ok [] := by
  rw [parseSetting_eq_ok_iff]
  constructor
  · rintro ⟨hNothing⟩
    exact hNothing
  · exact .nothing

end PagePress
