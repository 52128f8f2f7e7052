import Mathlib.Data.List.Forall2
import PagePress.Pass
import PagePress.Text.Blank
import PagePress.Text.Escape

/-!
# Texts with open numbers

The publisher names its variables by a counter, so the numbers in what it writes depend on all that
was compiled before. A pattern is a text in which these numbers are left open: each variable of a
pattern has a place, the number of variables taken before it, and a numbering gives every place its
number.

Two texts are alike when they are one pattern, filled under two numberings. The texts then differ
in nothing but numbers, and every test that the publisher makes on a text answers the same for both.

## Main results

* `Alike.append`, `Alike.intercalate` — what is put together from alike texts is alike.
* `Alike.isEmpty_eq`, `Alike.isBlankText_eq` — alike texts are empty together and blank together.
* `Alike.backslashQuotes` — quoting keeps texts alike.
* `Alike.renumber` — only the numbers of the places below the bound matter.
-/

namespace PagePress

/-- The number of the variable at each place. -/
abbrev Numbering := Nat → Nat

/-- A part of a text: text as it stands, or the variable that is taken at a place. -/
inductive Piece where
  | text (value : String)
  | slot (elementId : String) (place : Nat)

/-- A text in which the numbers of variables are open. -/
abbrev Pattern := List Piece

/-- A part of a text with its number filled in. -/
def Piece.fill (ν : Numbering) : Piece → String
  | .text value => value
  | .slot elementId place => variableName elementId (ν place)

/-- A part of a text has no variable from a place on. -/
def Piece.Below (bound : Nat) : Piece → Prop
  | .text _ => True
  | .slot _ place => place < bound

namespace Pattern

/-- The text of a pattern with its numbers filled in. -/
def fill (ν : Numbering) : Pattern → String
  | [] => ""
  | piece :: rest => piece.fill ν ++ fill ν rest

/-- A pattern has no variable from a place on. -/
def Below (bound : Nat) (p : Pattern) : Prop := ∀ piece ∈ p, piece.Below bound

theorem fill_append (ν : Numbering) (p q : Pattern) :
    fill ν (p ++ q) = fill ν p ++ fill ν q := by
  induction p with
  | nil => simp [fill]
  | cons piece rest ih => simp only [List.cons_append, fill, ih, String.append_assoc]

theorem fill_text (ν : Numbering) (value : String) : fill ν [.text value] = value := by
  simp [fill, Piece.fill]

theorem fill_slot (ν : Numbering) (elementId : String) (place : Nat) :
    fill ν [.slot elementId place] = variableName elementId (ν place) := by
  simp [fill, Piece.fill]

theorem Below.append {bound : Nat} {p q : Pattern} (hp : p.Below bound) (hq : q.Below bound) :
    Below bound (p ++ q) := by
  intro piece hm
  rcases List.mem_append.1 hm with h | h
  · exact hp piece h
  · exact hq piece h

theorem Below.mono {a b : Nat} {p : Pattern} (hp : p.Below a) (hab : a ≤ b) : p.Below b := by
  intro piece hm
  have hBelow := hp piece hm
  cases piece with
  | text value => trivial
  | slot elementId place => exact Nat.lt_of_lt_of_le hBelow hab

/-- A pattern is filled alike under numberings that agree below its bound. -/
theorem fill_congr {bound : Nat} {μ ν : Numbering} (h : ∀ place, place < bound → μ place = ν place)
    {p : Pattern} (hp : p.Below bound) : fill μ p = fill ν p := by
  induction p with
  | nil => rfl
  | cons piece rest ih =>
      have hRest : Below bound rest := fun other hm => hp other (List.mem_cons_of_mem _ hm)
      have hPiece : piece.Below bound := hp piece List.mem_cons_self
      simp only [fill, ih hRest]
      cases piece with
      | text value => rfl
      | slot elementId place => simp only [Piece.fill, h place hPiece]

end Pattern

/-! ## Variable names in tests and replacements -/

theorem variableName_ne_empty (elementId : String) (number : Nat) :
    variableName elementId number ≠ "" := by
  simp [variableName]

theorem isBlankText_append (a b : String) :
    Text.isBlankText (a ++ b) = (Text.isBlankText a && Text.isBlankText b) := by
  simp [Text.isBlankText]

theorem isBlankText_variableName (elementId : String) (number : Nat) :
    Text.isBlankText (variableName elementId number) = false := by
  have hFirst : Text.isBlankText "var_" = false := by decide
  simp only [variableName, isBlankText_append, hFirst, Bool.false_and]

theorem backslashQuotes_append (a b : String) :
    Text.backslashQuotes (a ++ b) = Text.backslashQuotes a ++ Text.backslashQuotes b :=
  Text.replaceChars_append _ a b

/-- A text without double quotes is quoted as it stands. -/
theorem backslashQuotes_of_not_mem {text : String} (h : '"' ∉ text.toList) :
    Text.backslashQuotes text = text := by
  have hChars : ∀ cs : List Char, '"' ∉ cs →
      cs.flatMap (fun c => if c = '"' then ['\\', '"'] else [c]) = cs := by
    intro cs hcs
    induction cs with
    | nil => rfl
    | cons c cs ih =>
        have hc : c ≠ '"' := fun hEq => hcs (by simp [hEq])
        have hRest : '"' ∉ cs := fun hm => hcs (List.mem_cons_of_mem _ hm)
        simp [hc, ih hRest]
  rw [Text.backslashQuotes, Text.replaceChars, hChars _ h, String.ofList_toList]

/-- A number is written with digits only. -/
theorem not_mem_toString {c : Char} (hc : c.isDigit = false) (number : Nat) :
    c ∉ (toString number).toList := by
  intro hm
  rw [Nat.toString_eq_repr, Nat.toList_repr] at hm
  have hDigit := Nat.isDigit_of_mem_toDigits (by decide) (by decide) hm
  rw [hc] at hDigit
  cases hDigit

theorem backslashQuotes_variableName (elementId : String) (number : Nat) :
    Text.backslashQuotes (variableName elementId number) =
      variableName (Text.backslashQuotes elementId) number := by
  have hDigits : '"' ∉ (toString number).toList := not_mem_toString (by decide) number
  have hStart : Text.backslashQuotes "var_" = "var_" := backslashQuotes_of_not_mem (by decide)
  have hDash : Text.backslashQuotes "_" = "_" := backslashQuotes_of_not_mem (by decide)
  simp only [variableName, backslashQuotes_append, backslashQuotes_of_not_mem hDigits, hStart,
    hDash]

/-! ## Alike texts -/

/-- Two texts are one pattern with variables at places below a bound, filled under two
numberings. -/
def Alike (σ τ : Numbering) (bound : Nat) (s t : String) : Prop :=
  ∃ p : Pattern, p.Below bound ∧ Pattern.fill σ p = s ∧ Pattern.fill τ p = t

namespace Alike

variable {σ τ : Numbering} {a b : Nat} {s s' t t' : String}

theorem refl (s : String) : Alike σ τ b s s :=
  ⟨[.text s], by intro piece hm; rw [List.mem_singleton.1 hm]; trivial,
    Pattern.fill_text σ s, Pattern.fill_text τ s⟩

theorem slot (elementId : String) {place : Nat} (h : place < b) :
    Alike σ τ b (variableName elementId (σ place)) (variableName elementId (τ place)) :=
  ⟨[.slot elementId place], by intro piece hm; rw [List.mem_singleton.1 hm]; exact h,
    Pattern.fill_slot σ elementId place, Pattern.fill_slot τ elementId place⟩

theorem mono (h : Alike σ τ a s t) (hab : a ≤ b) : Alike σ τ b s t := by
  obtain ⟨p, hp, hs, ht⟩ := h
  exact ⟨p, hp.mono hab, hs, ht⟩

theorem append (hs : Alike σ τ b s s') (ht : Alike σ τ b t t') :
    Alike σ τ b (s ++ t) (s' ++ t') := by
  obtain ⟨p, hp, rfl, rfl⟩ := hs
  obtain ⟨q, hq, rfl, rfl⟩ := ht
  exact ⟨p ++ q, hp.append hq, Pattern.fill_append σ p q, Pattern.fill_append τ p q⟩

theorem append_text (h : Alike σ τ b s t) (text : String) :
    Alike σ τ b (s ++ text) (t ++ text) :=
  h.append (refl text)

theorem text_append (text : String) (h : Alike σ τ b s t) :
    Alike σ τ b (text ++ s) (text ++ t) :=
  (refl text).append h

/-- Other numberings that agree below the bound make other texts of the same pattern. -/
theorem renumber {σ' τ' : Numbering} (h : Alike σ τ b s t)
    (hσ : ∀ place, place < b → σ place = σ' place)
    (hτ : ∀ place, place < b → τ place = τ' place) : Alike σ' τ' b s t := by
  obtain ⟨p, hp, rfl, rfl⟩ := h
  exact ⟨p, hp, (Pattern.fill_congr hσ hp).symm, (Pattern.fill_congr hτ hp).symm⟩

/-- A property of texts that no number decides is had by both texts or by neither. -/
theorem test_eq (test : String → Bool)
    (hAppend : ∀ u v, test (u ++ v) = (test u && test v))
    (hSlot : ∀ elementId number, test (variableName elementId number) = false)
    (h : Alike σ τ b s t) : test s = test t := by
  obtain ⟨p, -, rfl, rfl⟩ := h
  induction p with
  | nil => rfl
  | cons piece rest ih =>
      simp only [Pattern.fill, hAppend, ih]
      cases piece with
      | text value => rfl
      | slot elementId place => simp only [Piece.fill, hSlot, Bool.false_and]

theorem isEmpty_eq (h : Alike σ τ b s t) : s.isEmpty = t.isEmpty := by
  refine test_eq (·.isEmpty) ?_ ?_ h
  · intro u v
    rw [Bool.eq_iff_iff, Bool.and_eq_true, String.isEmpty_iff, String.isEmpty_iff,
      String.isEmpty_iff, String.append_eq_empty_iff]
  · intro elementId number
    simp [variableName_ne_empty]

theorem isBlankText_eq (h : Alike σ τ b s t) : Text.isBlankText s = Text.isBlankText t :=
  test_eq Text.isBlankText isBlankText_append isBlankText_variableName h

theorem backslashQuotes (h : Alike σ τ b s t) :
    Alike σ τ b (Text.backslashQuotes s) (Text.backslashQuotes t) := by
  obtain ⟨p, hp, rfl, rfl⟩ := h
  induction p with
  | nil => exact refl _
  | cons piece rest ih =>
      have hRest : Pattern.Below b rest := fun other hm => hp other (List.mem_cons_of_mem _ hm)
      have hPiece : piece.Below b := hp piece List.mem_cons_self
      simp only [Pattern.fill, backslashQuotes_append]
      refine append ?_ (ih hRest)
      cases piece with
      | text value => exact refl _
      | slot elementId place =>
          simp only [Piece.fill, backslashQuotes_variableName]
          exact slot _ hPiece

/-! ## Lists of texts -/

theorem refl_list (texts : List String) : List.Forall₂ (Alike σ τ b) texts texts := by
  induction texts with
  | nil => exact .nil
  | cons text rest ih => exact .cons (refl text) ih

theorem mono_list {xs ys : List String} (h : List.Forall₂ (Alike σ τ a) xs ys) (hab : a ≤ b) :
    List.Forall₂ (Alike σ τ b) xs ys :=
  h.imp fun _ _ hst => hst.mono hab

theorem intercalate (separator : String) {xs ys : List String}
    (h : List.Forall₂ (Alike σ τ b) xs ys) :
    Alike σ τ b (separator.intercalate xs) (separator.intercalate ys) := by
  induction h with
  | nil => exact refl _
  | cons hst hRest ih =>
      cases hRest with
      | nil =>
          simp only [String.intercalate_singleton]
          exact hst
      | cons hNext hOthers =>
          simp only [String.intercalate_cons_cons]
          exact (hst.append_text separator).append ih

/-- A filter that tells no alike texts apart keeps lists alike. -/
theorem filter {xs ys : List String} (test : String → Bool)
    (hTest : ∀ u v, Alike σ τ b u v → test u = test v) (h : List.Forall₂ (Alike σ τ b) xs ys) :
    List.Forall₂ (Alike σ τ b) (xs.filter test) (ys.filter test) := by
  induction h with
  | nil => exact .nil
  | cons hst _ ih =>
      simp only [List.filter_cons, ← hTest _ _ hst]
      split
      · exact .cons hst ih
      · exact ih

end Alike

end PagePress
