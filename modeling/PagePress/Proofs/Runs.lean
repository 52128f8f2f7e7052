import PagePress.Proofs.OneLine

/-!
# Runs between separators

The words of a slug and the components of a path are the pieces with text between the occurrences of
a separator. How many separators stand between two of them, or before the first and after the last,
does not matter to them. A text without such spare separators is tight: it is its runs, joined.

## Main results

* `runs_append`, `runs_intercalate` — the runs of texts with a separator between them.
* `isTight_intercalate`, `intercalate_runs` — the tight texts are the joined runs.
-/

namespace PagePress.Text

variable {separator : Char} {cs piece : List Char} {texts pieces : List (List Char)}

/-- The pieces with text between the occurrences of a separator. -/
def runs (separator : Char) (cs : List Char) : List (List Char) :=
  (cut separator cs).filter fun piece => !piece.isEmpty

/-- A text, not empty, without the separator. -/
def IsRun (separator : Char) (piece : List Char) : Prop := piece ≠ [] ∧ separator ∉ piece

theorem isRun_of_mem_runs (h : piece ∈ runs separator cs) : IsRun separator piece := by
  obtain ⟨hCut, hText⟩ := List.mem_filter.1 h
  refine ⟨?_, separator_not_mem_cut separator cs piece hCut⟩
  rintro rfl
  simp at hText

/-! ## Characters -/

theorem mem_intercalate {separator : List Char} {c : Char} {pieces : List (List Char)}
    (h : c ∈ separator.intercalate pieces) : c ∈ separator ∨ ∃ piece ∈ pieces, c ∈ piece := by
  induction pieces with
  | nil => cases h
  | cons piece rest ih =>
      cases rest with
      | nil => exact .inr ⟨piece, List.mem_cons_self, by simpa [List.intercalate] using h⟩
      | cons next others =>
          rw [List.intercalate_cons_cons, List.mem_append, List.mem_append] at h
          rcases h with (h | h) | h
          · exact .inr ⟨piece, List.mem_cons_self, h⟩
          · exact .inl h
          · rcases ih h with h | ⟨piece', hPiece, h⟩
            · exact .inl h
            · exact .inr ⟨piece', List.mem_cons_of_mem _ hPiece, h⟩

theorem mem_intercalate_of_mem (separator : List Char) {c : Char} {piece : List Char}
    {pieces : List (List Char)} (hPiece : piece ∈ pieces) (hc : c ∈ piece) :
    c ∈ separator.intercalate pieces := by
  induction pieces with
  | nil => cases hPiece
  | cons first rest ih =>
      cases rest with
      | nil =>
          obtain rfl := List.mem_singleton.1 hPiece
          simpa [List.intercalate] using hc
      | cons next others =>
          rw [List.intercalate_cons_cons]
          rcases List.mem_cons.1 hPiece with rfl | hPiece
          · exact List.mem_append_left _ (List.mem_append_left _ hc)
          · exact List.mem_append_right _ (ih hPiece)

theorem mem_of_mem_cut {separator c : Char} {cs piece : List Char}
    (hPiece : piece ∈ cut separator cs) (hc : c ∈ piece) : c ∈ cs := by
  rw [← intercalate_cut separator cs]
  exact mem_intercalate_of_mem _ hPiece hc

/-! ## Texts put together -/

theorem cut_intercalate (h : texts ≠ []) :
    cut separator ([separator].intercalate texts) = texts.flatMap (cut separator) := by
  induction texts with
  | nil => exact absurd rfl h
  | cons text rest ih =>
      cases rest with
      | nil => simp
      | cons next others =>
          rw [List.intercalate_cons_cons, List.append_assoc, List.singleton_append, cut_append,
            ih (List.cons_ne_nil _ _)]
          rfl

theorem runs_append (a b : List Char) :
    runs separator (a ++ separator :: b) = runs separator a ++ runs separator b := by
  rw [runs, cut_append, List.filter_append, runs, runs]

theorem runs_cons (cs : List Char) : runs separator (separator :: cs) = runs separator cs :=
  runs_append [] cs

theorem runs_concat (cs : List Char) : runs separator (cs ++ [separator]) = runs separator cs := by
  rw [runs_append]
  exact List.append_nil _

/-- Nothing is lost or joined when texts are put together with a separator between them. -/
theorem runs_intercalate (texts : List (List Char)) :
    runs separator ([separator].intercalate texts) = texts.flatMap (runs separator) := by
  cases texts with
  | nil => rfl
  | cons text rest =>
      rw [runs, cut_intercalate (List.cons_ne_nil _ _), List.filter_flatMap]
      rfl

theorem runs_of_isRun (h : IsRun separator piece) : runs separator piece = [piece] := by
  rw [runs, cut_of_not_mem h.2, List.filter_cons_of_pos (by simpa using h.1), List.filter_nil]

theorem flatMap_eq_self {f : List Char → List (List Char)}
    (h : ∀ piece ∈ pieces, f piece = [piece]) : pieces.flatMap f = pieces := by
  induction pieces with
  | nil => rfl
  | cons piece rest ih =>
      have hRest := ih fun other hMem => h other (List.mem_cons_of_mem _ hMem)
      rw [List.flatMap_cons, h piece List.mem_cons_self, hRest, List.singleton_append]

/-! ## Tight texts -/

/-- No separator stands at an end of a text or beside another one. -/
structure IsTight (separator : Char) (cs : List Char) : Prop where
  start : ¬ [separator] <+: cs
  finish : ¬ [separator] <:+ cs
  apart : ¬ [separator, separator] <:+: cs

/-- Joined runs are tight: a spare separator would leave an empty piece between them. -/
theorem isTight_intercalate (h : ∀ piece ∈ pieces, IsRun separator piece) :
    IsTight separator ([separator].intercalate pieces) := by
  have hPieces : ∀ a b, a ++ separator :: b = [separator].intercalate pieces →
      pieces = cut separator a ++ cut separator b := by
    intro a b hText
    have hSome : pieces ≠ [] := by
      rintro rfl
      simp at hText
    rw [← cut_append, hText, cut_intercalate hSome,
      flatMap_eq_self fun piece hMem => cut_of_not_mem (h piece hMem).2]
  have hEmpty : [] ∉ pieces := fun hMem => (h [] hMem).1 rfl
  refine ⟨?_, ?_, ?_⟩
  · rintro ⟨rest, hText⟩
    exact hEmpty (by rw [hPieces [] rest hText]; exact List.mem_cons_self)
  · rintro ⟨front, hText⟩
    exact hEmpty (by
      rw [hPieces front [] hText]
      exact List.mem_append_right _ List.mem_cons_self)
  · rintro ⟨front, rest, hText⟩
    rw [List.append_assoc, List.cons_append, List.singleton_append] at hText
    have hMiddle : cut separator (separator :: rest) = [] :: cut separator rest := by
      rw [cut, if_pos rfl]
    exact hEmpty (by
      rw [hPieces front (separator :: rest) hText, hMiddle]
      exact List.mem_append_right _ List.mem_cons_self)

theorem intercalate_append {first second : List (List Char)} (hFirst : first ≠ [])
    (hSecond : second ≠ []) : [separator].intercalate (first ++ second) =
      [separator].intercalate first ++ separator :: [separator].intercalate second := by
  induction first with
  | nil => exact absurd rfl hFirst
  | cons text rest ih =>
      cases rest with
      | nil =>
          obtain ⟨next, others, rfl⟩ := List.exists_cons_of_ne_nil hSecond
          simp [List.intercalate_cons_cons]
      | cons next others =>
          rw [List.cons_append, List.cons_append, List.intercalate_cons_cons, ← List.cons_append,
            ih (List.cons_ne_nil _ _), List.intercalate_cons_cons]
          simp

/-- Joined runs of several texts are joined runs. -/
theorem intercalate_flatMap {α : Type} {items : List α} {f : α → List (List Char)}
    (h : ∀ item ∈ items, f item ≠ []) :
    [separator].intercalate (items.map fun item => [separator].intercalate (f item)) =
      [separator].intercalate (items.flatMap f) := by
  induction items with
  | nil => rfl
  | cons item rest ih =>
      cases rest with
      | nil => simp
      | cons next others =>
          have hRest := ih fun other hMem => h other (List.mem_cons_of_mem _ hMem)
          have hNext : (next :: others).flatMap f ≠ [] := by
            rw [List.flatMap_cons]
            exact List.append_ne_nil_of_left_ne_nil
              (h next (List.mem_cons_of_mem _ List.mem_cons_self)) _
          rw [List.flatMap_cons, intercalate_append (h item List.mem_cons_self) hNext, ← hRest]
          simp [List.intercalate_cons_cons]

/-- An empty piece between the separators of a text is where it fails to be tight. -/
theorem nil_not_mem_cut (h : IsTight separator cs) (hSome : cs ≠ []) : [] ∉ cut separator cs := by
  intro hMem
  obtain ⟨before, after, hCut⟩ := List.append_of_mem hMem
  have hText : [separator].intercalate (before ++ [] :: after) = cs := by
    rw [← hCut, intercalate_cut]
  cases before with
  | nil =>
      cases after with
      | nil => exact hSome hText.symm
      | cons next others => exact h.start ⟨_, by rw [← hText]; rfl⟩
  | cons first rest =>
      rw [intercalate_append (List.cons_ne_nil _ _) (List.cons_ne_nil _ _)] at hText
      cases after with
      | nil => exact h.finish ⟨_, hText⟩
      | cons next others =>
          rw [List.intercalate_cons_cons, List.nil_append, List.singleton_append] at hText
          exact h.apart ⟨_, _, by rw [← hText, List.append_assoc]; rfl⟩

/-- A tight text is its runs, joined. -/
theorem intercalate_runs (h : IsTight separator cs) :
    [separator].intercalate (runs separator cs) = cs := by
  by_cases hSome : cs = []
  · rw [hSome]
    rfl
  · have hRuns : runs separator cs = cut separator cs := by
      refine List.filter_eq_self.2 fun piece hMem => ?_
      have hPiece : piece ≠ [] := fun hNil => nil_not_mem_cut h hSome (hNil ▸ hMem)
      simpa using hPiece
    rw [hRuns, intercalate_cut]

end PagePress.Text
