import PagePress.Text.Escape

/-!
# Literals of a script

Generated scripts hold texts in two kinds of literal: string literals between single quotes, and
template literals between backticks. A reader of either goes on to the first delimiter that no
backslash has taken; in a template literal a dollar sign and a brace would start a substitution
before that. Both kinds escape what they must, so what is read is the text that was written, and
reading stops at the delimiter of the literal, whatever stands behind it.

A script is indented as a whole after it was written, and that reaches into literals. Their lines
but the first get blanks in front, which are then part of the text.

## Main results

* `Literal.read_escape` — a text that was written is read back, up to its delimiter.
* `Literal.escape_template_indented` — indenting a template literal indents the text it stands for.
* `indented_eq_self_iff` — indentation changes every text with a line feed.
-/

namespace PagePress.Script

/-- The two kinds of literal that hold texts. -/
inductive Literal where
  | quoted
  | template
deriving DecidableEq, Repr

namespace Literal

/-! ## Writing -/

/-- The character at both ends of a literal. -/
def delimiter : Literal → Char
  | quoted => '\''
  | template => '\x60'

/-- What stands for a text between the ends of a literal. -/
def escape : Literal → List Char → List Char
  | quoted, text => text.flatMap Text.singleQuotedChar
  | template, text => Text.templateChars text

/-- The literal of a text. -/
def write (literal : Literal) (text : String) : String :=
  String.ofList (literal.delimiter :: (literal.escape text.toList ++ [literal.delimiter]))

theorem toList_write (literal : Literal) (text : String) :
    (literal.write text).toList =
      literal.delimiter :: (literal.escape text.toList ++ [literal.delimiter]) := by
  simp [write]

theorem write_quoted (text : String) : quoted.write text = Text.singleQuoted text := by
  rw [← String.toList_inj, toList_write, Text.singleQuoted]
  simp [delimiter, escape, String.toList_append]

/-! ## Reading -/

/-- Whether a script reads a character behind a backslash as the character itself. Letters, digits
and line ends have meanings of their own there. -/
def standsForItself (c : Char) : Bool :=
  !(c.isAlphanum || ['\n', '\r', '\u2028', '\u2029'].contains c)

/-- Whether a character before others starts a substitution. -/
def substitutes (literal : Literal) (c : Char) (rest : List Char) : Bool :=
  literal = template && c = '$' && rest.head? = some '{'

/-- A text with one character more at its start, and what stands behind it. -/
def prepend (c : Char) (tail : Option (List Char × List Char)) : Option (List Char × List Char) :=
  tail.map fun found => (c :: found.1, found.2)

/-- The text of a literal, read behind its first delimiter, and what stands behind its last one.
Nothing is read of a literal that does not end, has a substitution, or has an escape that does not
stand for its own character. A line end stands for itself. -/
def read (literal : Literal) : List Char → Option (List Char × List Char)
  | [] => none
  | '\\' :: c :: rest => if standsForItself c then prepend c (read literal rest) else none
  | c :: rest =>
    if c = literal.delimiter then some ([], rest)
    else if c = '\\' ∨ literal.substitutes c rest = true then none
    else prepend c (read literal rest)

theorem read_escaped (literal : Literal) {c : Char} (h : standsForItself c = true)
    (rest : List Char) : literal.read ('\\' :: c :: rest) = prepend c (literal.read rest) := by
  rw [read, if_pos h]

theorem read_delimiter (literal : Literal) (rest : List Char) :
    literal.read (literal.delimiter :: rest) = some ([], rest) := by
  cases literal <;> rfl

theorem read_plain {literal : Literal} {c : Char} {rest : List Char}
    (hDelimiter : c ≠ literal.delimiter) (hBackslash : c ≠ '\\')
    (hPlain : literal.substitutes c rest = false) :
    literal.read (c :: rest) = prepend c (literal.read rest) := by
  rw [read.eq_3, if_neg hDelimiter, if_neg (by simp [hBackslash, hPlain])]
  intro d more hEq
  exact absurd hEq hBackslash

/-! ## Escaping in a template -/

theorem templateChars_plain {c : Char} {rest : List Char} (hBackslash : c ≠ '\\')
    (hBacktick : c ≠ '\x60') (hPlain : template.substitutes c rest = false) :
    Text.templateChars (c :: rest) = c :: Text.templateChars rest := by
  rw [Text.templateChars.eq_3, if_neg hBackslash, if_neg hBacktick]
  rintro more rfl rfl
  cases hPlain

/-- A text is escaped character by character, but a dollar sign together with a brace behind it. -/
theorem template_cases {motive : List Char → Prop} (nil : motive [])
    (substitution : ∀ rest, motive rest → motive ('$' :: '{' :: rest))
    (escaped : ∀ c rest, c = '\\' ∨ c = '\x60' → motive rest → motive (c :: rest))
    (plain : ∀ c rest, c ≠ '\\' → c ≠ '\x60' → template.substitutes c rest = false →
      motive rest → motive (c :: rest)) (text : List Char) : motive text := by
  induction text using Text.templateChars.induct with
  | case1 => exact nil
  | case2 rest ih => exact substitution rest ih
  | case3 rest _ ih => exact escaped '\\' rest (.inl rfl) ih
  | case4 rest _ _ ih => exact escaped '\x60' rest (.inr rfl) ih
  | case5 c rest hPair hBackslash hBacktick ih =>
      refine plain c rest hBackslash hBacktick ?_ ih
      cases rest with
      | nil => simp [substitutes]
      | cons d more =>
          rw [Bool.eq_false_iff]
          intro hSubstitutes
          obtain ⟨rfl, rfl⟩ : c = '$' ∧ d = '{' := by simpa [substitutes] using hSubstitutes
          exact hPair more rfl rfl

theorem templateChars_substitution (rest : List Char) :
    Text.templateChars ('$' :: '{' :: rest) = '\\' :: '$' :: '{' :: Text.templateChars rest := by
  simp [Text.templateChars]

theorem templateChars_escaped {c : Char} (h : c = '\\' ∨ c = '\x60') (rest : List Char) :
    Text.templateChars (c :: rest) = '\\' :: c :: Text.templateChars rest := by
  rcases h with rfl | rfl
  · simp [Text.templateChars]
  · simp [Text.templateChars]

/-- Escaping leaves the first character of a text as it is, unless it may escape that. -/
theorem head?_templateChars {c : Char} (h : c ≠ '\\' ∧ c ≠ '\x60' ∧ c ≠ '$') (text : List Char) :
    (Text.templateChars text).head? = some c ↔ text.head? = some c := by
  induction text using template_cases with
  | nil => rfl
  | substitution rest _ => simp [Text.templateChars, h.1.symm, h.2.2.symm]
  | escaped d rest hd _ =>
      rw [templateChars_escaped hd]
      rcases hd with rfl | rfl <;> simp [h.1.symm, h.2.1.symm]
  | plain d rest hBackslash hBacktick hPlain _ =>
      rw [templateChars_plain hBackslash hBacktick hPlain]
      rfl

/-! ## Reading back -/

theorem read_escape_quoted (text rest : List Char) :
    quoted.read (text.flatMap Text.singleQuotedChar ++ quoted.delimiter :: rest) =
      some (text, rest) := by
  induction text with
  | nil => exact read_delimiter quoted rest
  | cons c cs ih =>
      rw [List.flatMap_cons, List.append_assoc, Text.singleQuotedChar]
      by_cases hBackslash : c = '\\'
      · rw [if_pos hBackslash, hBackslash, List.cons_append, List.singleton_append,
          read_escaped _ (by decide), ih]
        rfl
      · rw [if_neg hBackslash]
        by_cases hQuote : c = '\''
        · rw [if_pos hQuote, hQuote, List.cons_append, List.singleton_append,
            read_escaped _ (by decide), ih]
          rfl
        · rw [if_neg hQuote, List.singleton_append, read_plain hQuote hBackslash rfl, ih]
          rfl

theorem read_escape_template (text rest : List Char) :
    template.read (Text.templateChars text ++ template.delimiter :: rest) = some (text, rest) := by
  induction text using template_cases with
  | nil => exact read_delimiter template rest
  | substitution cs ih =>
      have hBrace : template.read ('{' :: (Text.templateChars cs ++ template.delimiter :: rest)) =
          prepend '{' (some (cs, rest)) := by
        rw [read_plain (by decide) (by decide) (by simp [substitutes]), ih]
      rw [templateChars_substitution, List.cons_append, List.cons_append, List.cons_append,
        read_escaped _ (by decide), hBrace]
      rfl
  | escaped c cs hc ih =>
      have hItself : standsForItself c = true := by rcases hc with rfl | rfl <;> decide
      rw [templateChars_escaped hc, List.cons_append, List.cons_append, read_escaped _ hItself, ih]
      rfl
  | plain c cs hBackslash hBacktick hPlain ih =>
      have hStill : template.substitutes c (Text.templateChars cs ++ template.delimiter :: rest) =
          false := by
        have hHead := head?_templateChars (c := '{') (by decide) cs
        cases hEscaped : Text.templateChars cs with
        | nil => simp [substitutes, delimiter]
        | cons d more =>
            rw [hEscaped] at hHead
            simpa [substitutes, ← hHead] using hPlain
      rw [templateChars_plain hBackslash hBacktick hPlain, List.cons_append,
        read_plain hBacktick hBackslash hStill, ih]
      rfl

/-- A text that was written is read back, up to the delimiter of its literal and whatever stands
behind that. -/
theorem read_escape (literal : Literal) (text rest : List Char) :
    literal.read (literal.escape text ++ literal.delimiter :: rest) = some (text, rest) := by
  cases literal with
  | quoted => exact read_escape_quoted text rest
  | template => exact read_escape_template text rest

/-! ## Characters of literals -/

/-- Escaping adds backslashes and nothing else. -/
theorem count_escape (literal : Literal) {c : Char} (h : c ≠ '\\') (text : List Char) :
    (literal.escape text).count c = text.count c := by
  have hBackslash : ∀ d (rest : List Char), ('\\' :: d :: rest).count c = (d :: rest).count c :=
    fun d rest => List.count_cons_of_ne (Ne.symm h)
  cases literal with
  | quoted =>
      change (text.flatMap Text.singleQuotedChar).count c = text.count c
      induction text with
      | nil => rfl
      | cons d rest ih =>
          have hOne : (Text.singleQuotedChar d).count c = [d].count c := by
            unfold Text.singleQuotedChar
            split
            · rename_i hd
              rw [hBackslash, hd]
            · split
              · rename_i hd
                rw [hBackslash, hd]
              · rfl
          rw [List.flatMap_cons, List.count_append, ih, hOne, ← List.count_append,
            List.singleton_append]
  | template =>
      change (Text.templateChars text).count c = text.count c
      induction text using template_cases with
      | nil => rfl
      | substitution rest ih =>
          rw [templateChars_substitution, hBackslash, List.count_cons, List.count_cons, ih,
            List.count_cons, List.count_cons]
      | escaped d rest hd ih =>
          rw [templateChars_escaped hd, hBackslash, List.count_cons, ih, List.count_cons]
      | plain d rest hNotBackslash hBacktick hPlain ih =>
          rw [templateChars_plain hNotBackslash hBacktick hPlain, List.count_cons, ih,
            List.count_cons]

theorem mem_escape_iff (literal : Literal) {c : Char} (h : c ≠ '\\') (text : List Char) :
    c ∈ literal.escape text ↔ c ∈ text := by
  rw [← List.count_pos_iff, count_escape literal h, List.count_pos_iff]

end Literal

/-! ## Indentation -/

/-- A text whose lines but the first are indented by two blanks. An empty line stays empty, but the
last one is none: the delimiter of the literal stands behind it. -/
def indented : List Char → List Char
  | [] => []
  | c :: rest =>
    if c = '\n' ∧ rest.head? ≠ some '\n' then c :: ' ' :: ' ' :: indented rest
    else c :: indented rest

theorem head?_indented (text : List Char) : (indented text).head? = text.head? := by
  cases text with
  | nil => rfl
  | cons c rest =>
      rw [indented]
      split <;> rfl

theorem indented_cons {c : Char} (h : c ≠ '\n') (rest : List Char) :
    indented (c :: rest) = c :: indented rest := by
  rw [indented, if_neg (fun hBoth => h hBoth.1)]

/-- Indenting a template literal indents the text that it stands for. -/
theorem Literal.escape_template_indented (text : List Char) :
    Literal.template.escape (indented text) = indented (Literal.template.escape text) := by
  change Text.templateChars (indented text) = indented (Text.templateChars text)
  induction text using Literal.template_cases with
  | nil => rfl
  | substitution rest ih =>
      rw [indented_cons (by decide), indented_cons (by decide), Literal.templateChars_substitution,
        Literal.templateChars_substitution, indented_cons (by decide), indented_cons (by decide),
        indented_cons (by decide), ih]
  | escaped c rest hc ih =>
      have hFeed : c ≠ '\n' := by rcases hc with rfl | rfl <;> decide
      rw [indented_cons hFeed, Literal.templateChars_escaped hc, Literal.templateChars_escaped hc,
        indented_cons (by decide), indented_cons hFeed, ih]
  | plain c rest hBackslash hBacktick hPlain ih =>
      rw [Literal.templateChars_plain hBackslash hBacktick hPlain]
      by_cases hFeed : c = '\n'
      · subst hFeed
        have hHead := Literal.head?_templateChars (c := '\n') (by decide) rest
        have hAsIs : ∀ {d}, d = '\n' ∨ d = ' ' → ∀ cs,
            Text.templateChars (d :: cs) = d :: Text.templateChars cs := by
          rintro d (rfl | rfl) cs
          · exact Literal.templateChars_plain (by decide) (by decide)
              (by simp [Literal.substitutes])
          · exact Literal.templateChars_plain (by decide) (by decide)
              (by simp [Literal.substitutes])
        have hBlank := hAsIs (.inr rfl)
        rw [indented, indented]
        by_cases hEmpty : rest.head? = some '\n'
        · rw [if_neg (by simp [hEmpty]), if_neg (by simp [hHead.2 hEmpty]), hAsIs (.inl rfl), ih]
        · rw [if_pos ⟨rfl, hEmpty⟩, if_pos ⟨rfl, fun h => hEmpty (hHead.1 h)⟩, hAsIs (.inl rfl),
            hBlank, hBlank, ih]
      · have hStill : Literal.template.substitutes c (indented rest) = false := by
          rw [Literal.substitutes, head?_indented]
          exact hPlain
        rw [indented_cons hFeed, indented_cons hFeed,
          Literal.templateChars_plain hBackslash hBacktick hStill, ih]

theorem length_le_indented (text : List Char) : text.length ≤ (indented text).length := by
  induction text with
  | nil => exact Nat.le_refl _
  | cons c rest ih =>
      rw [indented]
      split <;> simp only [List.length_cons] <;> omega

/-- The last line feed of a text is followed by a line that is not empty, so a text with a line feed
gets longer. -/
theorem length_lt_indented {text : List Char} (h : '\n' ∈ text) :
    text.length < (indented text).length := by
  induction text with
  | nil => cases h
  | cons c rest ih =>
      have hLength := length_le_indented rest
      rw [indented]
      split
      · simp only [List.length_cons]
        omega
      · rename_i hNot
        have hRest : '\n' ∈ rest := by
          rcases List.mem_cons.1 h with rfl | hRest
          · have hHead : rest.head? = some '\n' := by simpa using hNot
            exact List.mem_of_mem_head? hHead
          · exact hRest
        have hLess := ih hRest
        simp only [List.length_cons]
        omega

theorem indented_of_not_mem {text : List Char} (h : '\n' ∉ text) : indented text = text := by
  induction text with
  | nil => rfl
  | cons c rest ih =>
      obtain ⟨hHead, hRest⟩ := not_or.1 (fun hOr => h (List.mem_cons.2 hOr))
      rw [indented_cons (Ne.symm hHead), ih hRest]

/-- Indentation keeps the texts without a line feed, and no others. -/
theorem indented_eq_self_iff (text : List Char) : indented text = text ↔ '\n' ∉ text := by
  refine ⟨fun hSame hFeed => ?_, indented_of_not_mem⟩
  have hLess := length_lt_indented hFeed
  rw [hSame] at hLess
  exact Nat.lt_irrefl _ hLess

end PagePress.Script
