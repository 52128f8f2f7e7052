import Mathlib.Data.List.DropRight
import PagePress.Proofs.Runs
import PagePress.Slug

/-!
# Normal forms of slugs

A slug is in normal form: it is empty, or words of small letters and digits with single dashes
between them. What is in normal form already is its own slug.

A slug can also be made in passes over the name: lower case, one dash for each run of blanks, no
characters but those that a slug keeps, one dash for each run of dashes, no dashes at the ends.
Stripping can bring dashes together and leave them at the ends, so the two passes after it cannot
come first. Nothing about lower case matters but which blanks and which small letters come out of a
character: it may give several characters for one.

## Main results

* `words_of_isNormal` — the words of a normal form are read back from it.
* `passes_eq` — the passes give the words of a name, joined by single dashes.
* `slugify_normal` — slugs are the normal forms, and the texts that are their own slugs.
-/

namespace PagePress

namespace Slug

open Text

variable {c : Char} {cs name word : List Char} {joined : List (List Char)}

/-! ## Normal forms -/

/-- At least one letter or digit, and nothing else. -/
def IsWord (word : List Char) : Prop := word ≠ [] ∧ ∀ c ∈ word, isWordChar c = true

/-- Words joined by single dashes. The empty text has no words. -/
def IsNormal (slug : List Char) : Prop :=
  ∃ words : List (List Char), (∀ word ∈ words, IsWord word) ∧ slug = ['-'].intercalate words

/-- Whether a slug keeps a character. -/
def isKept (c : Char) : Bool := isWordChar c || c = '-'

theorem IsWord.isRun (h : IsWord word) : IsRun '-' word :=
  ⟨h.1, fun hMem => absurd (h.2 _ hMem) (by decide)⟩

theorem isWord_of_mem_words (h : word ∈ words name) : IsWord word := by
  have hRun : IsRun '-' word := isRun_of_mem_runs h
  refine ⟨hRun.1, fun c hMem => ?_⟩
  have hKept : c ∈ kept name := mem_of_mem_cut (List.mem_filter.1 h).1 hMem
  have hChar : isWordChar c = true ∨ c = '-' := by simpa using (List.mem_filter.1 hKept).2
  exact hChar.resolve_right fun hDash => hRun.2 (hDash ▸ hMem)

theorem isKept_of_isNormal (h : IsNormal cs) (hMem : c ∈ cs) : isKept c = true := by
  obtain ⟨words, hWords, rfl⟩ := h
  rw [isKept, Bool.or_eq_true, decide_eq_true_eq]
  rcases mem_intercalate hMem with hDash | ⟨word, hWord, hChar⟩
  · exact .inr (List.mem_singleton.1 hDash)
  · exact .inl ((hWords word hWord).2 c hChar)

/-- Visible ASCII characters are not blank. -/
theorem not_isBlank_of_visible (h : 33 ≤ c.toNat ∧ c.toNat ≤ 126) : isBlank c = false := by
  simp only [isBlank, blankRanges, List.any_cons, List.any_nil, Bool.or_false,
    Bool.or_eq_false_iff, Bool.and_eq_false_imp, decide_eq_true_eq, decide_eq_false_iff_not]
  omega

theorem toLower_eq_self (h : ¬ (65 ≤ c.toNat ∧ c.toNat ≤ 90)) : c.toLower = c :=
  dif_neg (by simpa [UInt32.le_iff_toNat_le] using h)

/-- Letters and digits are neither blank nor in upper case. -/
theorem dashed_of_isKept (h : isKept c = true) : dashed c = c := by
  rw [isKept, Bool.or_eq_true, decide_eq_true_eq] at h
  rcases h with hWord | rfl
  · have hRange : 97 ≤ c.toNat ∧ c.toNat ≤ 122 ∨ 48 ≤ c.toNat ∧ c.toNat ≤ 57 := by
      simpa [isWordChar, Char.isDigit, Char.le_def, UInt32.le_iff_toNat_le] using hWord
    have hText : isBlank c = false := not_isBlank_of_visible (by omega)
    have hKelvin : c ≠ '\u212a' := by
      rintro rfl
      exact absurd hWord (by decide)
    have hDotted : c ≠ '\u0130' := by
      rintro rfl
      exact absurd hWord (by decide)
    rw [dashed, hText, lower, if_neg hKelvin, if_neg hDotted, toLower_eq_self (by omega)]
    rfl
  · decide

/-- A text in normal form holds all its words and nothing else. -/
theorem words_of_isNormal (h : ∀ word ∈ joined, IsWord word) :
    words (['-'].intercalate joined) = joined := by
  have hNormal : IsNormal (['-'].intercalate joined) := ⟨joined, h, rfl⟩
  have hKept : kept (['-'].intercalate joined) = ['-'].intercalate joined := by
    have hDashed : (['-'].intercalate joined).map dashed = (['-'].intercalate joined).map id :=
      List.map_congr_left fun c hMem => dashed_of_isKept (isKept_of_isNormal hNormal hMem)
    rw [kept, hDashed, List.map_id]
    exact List.filter_eq_self.2 fun c hMem => isKept_of_isNormal hNormal hMem
  calc words (['-'].intercalate joined) = runs '-' (kept (['-'].intercalate joined)) := rfl
    _ = runs '-' (['-'].intercalate joined) := by rw [hKept]
    _ = joined.flatMap (runs '-') := runs_intercalate joined
    _ = joined := flatMap_eq_self fun word hMem => runs_of_isRun (h word hMem).isRun

/-! ## Passes -/

/-- Every run of characters that pass a test becomes one dash. The flag tells whether the text is in
the middle of such a run. -/
def squeeze (test : Char → Bool) : Bool → List Char → List Char
  | _, [] => []
  | true, c :: cs => if test c then squeeze test true cs else c :: squeeze test false cs
  | false, c :: cs => if test c then '-' :: squeeze test true cs else c :: squeeze test false cs

/-- A text without the dashes at its ends. -/
def trimDashes (cs : List Char) : List Char :=
  (cs.dropWhile (· = '-')).rdropWhile (· = '-')

/-- The passes over a name, for a way to put characters in lower case. -/
def passes (lowerCase : Char → List Char) (name : List Char) : List Char :=
  let lowered := name.flatMap lowerCase
  let dashed := squeeze isBlank false lowered
  let stripped := dashed.filter isKept
  let collapsed := squeeze (· = '-') false stripped
  trimDashes collapsed

/-- What lower case has to do with slugs: blanks stay as they are, nothing else becomes blank, and
of what a character becomes a slug keeps one letter or none. -/
structure IsLowerCase (lowerCase : Char → List Char) : Prop where
  blank : ∀ c, isBlank c = true → lowerCase c = [c]
  text : ∀ c, isBlank c = false → ∀ d ∈ lowerCase c, isBlank d = false
  letters : ∀ c, (lowerCase c).filter isKept = [lower c].filter isKept

/-! ### Words in passes -/

/-- A dash for each character that passes a test makes the same words as one dash for each run of
them, when all other dashes are kept. -/
theorem runs_squeeze (test keep : Char → Bool) (hDash : keep '-' = true) (cs front : List Char) :
    runs '-' (front ++ (squeeze test false cs).filter keep) =
        runs '-' (front ++ (cs.map fun c => if test c then '-' else c).filter keep) ∧
      runs '-' (front ++ '-' :: (squeeze test true cs).filter keep) =
        runs '-' (front ++ '-' :: (cs.map fun c => if test c then '-' else c).filter keep) := by
  induction cs generalizing front with
  | nil => exact ⟨rfl, rfl⟩
  | cons c cs ih =>
      rw [squeeze, squeeze, List.map_cons]
      by_cases hTest : test c = true
      · rw [if_pos hTest, if_pos hTest, if_pos hTest, List.filter_cons_of_pos hDash,
          List.filter_cons_of_pos hDash]
        refine ⟨(ih front).2, (ih front).2.trans ?_⟩
        rw [runs_append, runs_append, runs_cons]
      · rw [if_neg hTest, if_neg hTest, if_neg hTest]
        by_cases hKeep : keep c = true
        · rw [List.filter_cons_of_pos hKeep, List.filter_cons_of_pos hKeep]
          exact ⟨by simpa using (ih (front ++ [c])).1, by simpa using (ih (front ++ ['-', c])).1⟩
        · rw [List.filter_cons_of_neg hKeep, List.filter_cons_of_neg hKeep]
          exact ⟨(ih front).1, by simpa using (ih (front ++ ['-'])).1⟩

theorem runs_dropWhile (cs : List Char) : runs '-' (cs.dropWhile (· = '-')) = runs '-' cs := by
  induction cs with
  | nil => rfl
  | cons c cs ih =>
      rw [List.dropWhile_cons]
      split
      · rename_i hDash
        rw [ih, of_decide_eq_true hDash, runs_cons]
      · rfl

theorem runs_rdropWhile (cs : List Char) : runs '-' (cs.rdropWhile (· = '-')) = runs '-' cs := by
  induction cs using List.reverseRecOn with
  | nil => rfl
  | append_singleton cs c ih =>
      rw [List.rdropWhile_concat]
      split
      · rename_i hDash
        rw [ih, of_decide_eq_true hDash, runs_concat]
      · rfl

theorem runs_trimDashes (cs : List Char) : runs '-' (trimDashes cs) = runs '-' cs := by
  rw [trimDashes, runs_rdropWhile, runs_dropWhile]

/-- Lower case, dashes for blanks and stripping, one character at a time. -/
theorem filter_flatMap_lowerCase {lowerCase : Char → List Char} (h : IsLowerCase lowerCase)
    (name : List Char) :
    ((name.flatMap lowerCase).map fun c => if isBlank c then '-' else c).filter isKept =
      kept name := by
  have hChar : ∀ c, ((lowerCase c).map fun c => if isBlank c then '-' else c).filter isKept =
      [dashed c].filter isKept := by
    intro c
    cases hBlank : isBlank c with
    | true => rw [h.blank c hBlank, List.map_singleton, dashed, if_pos hBlank, if_pos hBlank]
    | false =>
        have hSame : (lowerCase c).map (fun d => if isBlank d then '-' else d) =
            (lowerCase c).map id :=
          List.map_congr_left fun d hMem => by rw [h.text c hBlank d hMem]; rfl
        rw [hSame, List.map_id, h.letters, dashed, hBlank]
        rfl
  induction name with
  | nil => rfl
  | cons c name ih =>
      rw [List.flatMap_cons, List.map_append, List.filter_append, ih, hChar]
      exact (List.filter_append [dashed c] (name.map dashed)).symm

/-- No pass changes the words. -/
theorem runs_passes {lowerCase : Char → List Char} (h : IsLowerCase lowerCase) (name : List Char) :
    runs '-' (passes lowerCase name) = words name := by
  have hAll : ∀ cs : List Char, cs.filter (fun _ => true) = cs := List.filter_true
  have hCollapse : ∀ cs, runs '-' (squeeze (· = '-') false cs) = runs '-' cs := by
    intro cs
    have hSqueeze := (runs_squeeze (· = '-') (fun _ => true) rfl cs []).1
    have hSame : cs.map (fun c => if decide (c = '-') = true then '-' else c) = cs.map id :=
      List.map_congr_left fun c _ => by
        split
        · rename_i hDash
          exact (of_decide_eq_true hDash).symm
        · rfl
    rwa [hAll, hAll, hSame, List.map_id] at hSqueeze
  have hBlanks := (runs_squeeze isBlank isKept rfl (name.flatMap lowerCase) []).1
  rw [List.nil_append, List.nil_append, filter_flatMap_lowerCase h] at hBlanks
  rw [passes, runs_trimDashes, hCollapse, hBlanks]
  rfl

/-! ### Dashes after passes -/

/-- Squeezed dashes are single, and so is a dash right before a run that is cut short. -/
theorem not_infix_squeeze (cs : List Char) :
    ¬ ['-', '-'] <:+: squeeze (· = '-') false cs ∧
      ¬ ['-', '-'] <:+: '-' :: squeeze (· = '-') true cs := by
  have hOther : ∀ {c : Char} {cs : List Char}, c ≠ '-' → ¬ ['-', '-'] <:+: cs →
      ¬ ['-', '-'] <:+: c :: cs ∧ ¬ ['-', '-'] <:+: '-' :: c :: cs := by
    intro c cs hChar hRest
    have hFirst : ¬ ['-', '-'] <:+: c :: cs := by
      rw [List.infix_cons_iff, not_or, List.cons_prefix_cons]
      exact ⟨fun hPrefix => hChar hPrefix.1.symm, hRest⟩
    refine ⟨hFirst, ?_⟩
    rw [List.infix_cons_iff, not_or, List.cons_prefix_cons, List.cons_prefix_cons]
    exact ⟨fun hPrefix => hChar hPrefix.2.1.symm, hFirst⟩
  induction cs with
  | nil => exact ⟨by decide, by decide⟩
  | cons c cs ih =>
      rw [squeeze, squeeze]
      by_cases hDash : c = '-'
      · rw [if_pos (decide_eq_true hDash), if_pos (decide_eq_true hDash)]
        exact ⟨ih.2, ih.2⟩
      · rw [if_neg (by simpa using hDash), if_neg (by simpa using hDash)]
        exact hOther hDash ih.1

/-- Once dashes are single, trimming leaves no spare ones. -/
theorem isTight_trimDashes (h : ¬ ['-', '-'] <:+: cs) : IsTight '-' (trimDashes cs) := by
  have hPrefix := List.rdropWhile_prefix (fun c : Char => decide (c = '-')) (cs.dropWhile (· = '-'))
  refine ⟨?_, ?_, ?_⟩
  · intro hStart
    obtain ⟨rest, hRest⟩ := hStart.trans hPrefix
    have hHead := List.head?_dropWhile_not (fun c : Char => decide (c = '-')) cs
    rw [← hRest] at hHead
    simp at hHead
  · rintro ⟨front, hFront⟩
    rw [trimDashes] at hFront
    have hLast := List.rdropWhile_last_not (fun c : Char => decide (c = '-'))
      (cs.dropWhile (· = '-')) (by simp [← hFront])
    simp [← hFront] at hLast
  · intro hApart
    exact h (hApart.trans (hPrefix.isInfix.trans (List.dropWhile_suffix _).isInfix))

/-- The passes give the words of a name, joined by single dashes. -/
theorem passes_eq {lowerCase : Char → List Char} (h : IsLowerCase lowerCase) (name : List Char) :
    passes lowerCase name = ['-'].intercalate (words name) := by
  have hTight : IsTight '-' (passes lowerCase name) :=
    isTight_trimDashes (not_infix_squeeze _).1
  rw [← runs_passes h, intercalate_runs hTight]

/-! ### Lower case -/

/-- Lower case as far as slugs see it, with the dot that stays of a capital I with a dot above. -/
def plainLowerCase (c : Char) : List Char :=
  if c = '\u0130' then ['i', '\u0307'] else [lower c]

theorem toNat_toLower (h : 65 ≤ c.toNat ∧ c.toNat ≤ 90) : c.toLower.toNat = c.toNat + 32 := by
  have hUpper : c.val ≥ 'A'.val ∧ c.val ≤ 'Z'.val := by simpa [UInt32.le_iff_toNat_le] using h
  have hVal : c.toLower.val = c.val + ('a'.val - 'A'.val) := congrArg Char.val (dif_pos hUpper)
  have hSum := congrArg UInt32.toNat hVal
  simp only [Char.toNat_val, Char.reduceVal, UInt32.reduceSub, UInt32.toNat_add,
    UInt32.reduceToNat] at hSum
  omega

theorem isBlank_lower (h : isBlank c = false) : isBlank (lower c) = false := by
  rw [lower]
  split
  · decide
  · split
    · decide
    · by_cases hUpper : 65 ≤ c.toNat ∧ c.toNat ≤ 90
      · have hSmall := toNat_toLower hUpper
        exact not_isBlank_of_visible (by omega)
      · rwa [toLower_eq_self hUpper]

theorem isLowerCase_plain : IsLowerCase plainLowerCase where
  blank c h := by
    have hSmall : ¬ (65 ≤ c.toNat ∧ c.toNat ≤ 90) := fun hUpper => by
      rw [not_isBlank_of_visible (by omega)] at h
      cases h
    have hKelvin : c ≠ '\u212a' := by
      rintro rfl
      exact absurd h (by decide)
    have hDotted : c ≠ '\u0130' := by
      rintro rfl
      exact absurd h (by decide)
    rw [plainLowerCase, if_neg hDotted, lower, if_neg hKelvin, if_neg hDotted,
      toLower_eq_self hSmall]
  text c h d hMem := by
    unfold plainLowerCase at hMem
    split at hMem
    · rcases List.mem_pair.1 hMem with rfl | rfl <;> decide
    · rw [List.mem_singleton.1 hMem]
      exact isBlank_lower h
  letters c := by
    rw [plainLowerCase]
    split
    · rename_i hDotted
      rw [hDotted]
      decide
    · rfl

end Slug

/-! ## Slugs -/

open Slug

/-- The slug of a text in normal form is that text. -/
theorem slugify_of_isNormal {text : String} (h : IsNormal text.toList) : slugify text = text := by
  obtain ⟨words, hWords, hText⟩ := h
  rw [slugify, hText, words_of_isNormal hWords, ← hText, String.ofList_toList]

theorem isNormal_slugify (text : String) : IsNormal (slugify text).toList :=
  ⟨words text.toList, fun _ hMem => isWord_of_mem_words hMem, by rw [slugify, String.toList_ofList]⟩

/-- Every slug is in normal form: words of small letters and digits with single dashes between them,
so that no dash stands at an end or beside another. A text is its own slug exactly when it is in
normal form, so a slug is its own slug. Slugs are what the passes make of a text, whatever is taken
for lower case. -/
theorem slugify_normal (text : String) :
    IsNormal (slugify text).toList ∧ Text.IsTight '-' (slugify text).toList ∧
      slugify (slugify text) = slugify text ∧ (slugify text = text ↔ IsNormal text.toList) ∧
      ∀ lowerCase, IsLowerCase lowerCase →
        (slugify text).toList = passes lowerCase text.toList := by
  have hNormal := isNormal_slugify text
  have hTight : Text.IsTight '-' (slugify text).toList := by
    obtain ⟨words, hWords, hText⟩ := hNormal
    rw [hText]
    exact Text.isTight_intercalate fun word hMem => (hWords word hMem).isRun
  refine ⟨hNormal, hTight, slugify_of_isNormal hNormal, ⟨fun hSame => ?_, slugify_of_isNormal⟩, ?_⟩
  · exact hSame ▸ hNormal
  · intro lowerCase hLower
    rw [passes_eq hLower, slugify, String.toList_ofList]

theorem kelvinName_normal :
    IsLowerCase plainLowerCase ∧ slugify " \u212a  \u0130stanbul -_- 42!" = "k-istanbul-42" ∧
      IsNormal "k-istanbul-42".toList ∧
      slugify "k-istanbul-42" = "k-istanbul-42" ∧
      "k-istanbul-42".toList =
        passes plainLowerCase " \u212a  \u0130stanbul -_- 42!".toList := by
  have hSlug : slugify " \u212a  \u0130stanbul -_- 42!" = "k-istanbul-42" := by decide +kernel
  obtain ⟨hNormal, -, hSame, -, hPasses⟩ := slugify_normal " \u212a  \u0130stanbul -_- 42!"
  rw [hSlug] at hNormal hSame hPasses
  exact ⟨isLowerCase_plain, hSlug, hNormal, hSame, hPasses _ isLowerCase_plain⟩

end PagePress
