import PagePress.Block
import PagePress.Markup.Tag
import PagePress.Proofs.Numbering.Pattern

/-!
# Numbers in generated lines and in attributes

The line buffer asks whether a line is empty, and the attributes of a tag ask whether a value is
empty and which name it has. None of these tests sees a number, so alike parts make alike lines and
alike tags.

## Main results

* `alike_liquidTag` — the tag around alike statements.
* `alike_attributesText`, `alike_tagged` — an element with alike attributes around alike content.
-/

namespace PagePress

variable {σ τ : Numbering} {bound : Nat}

/-! ## Lines -/

/-- Buffers with alike lines at one depth. -/
structure AlikeBuffer (σ τ : Numbering) (bound : Nat) (b c : LineBuffer) : Prop where
  unit : b.unit = c.unit
  depth : b.depth = c.depth
  finished : Alike σ τ bound b.finished c.finished
  line : Alike σ τ bound b.line c.line

namespace AlikeBuffer

variable {b c : LineBuffer}

theorem refl (b : LineBuffer) : AlikeBuffer σ τ bound b b :=
  ⟨rfl, rfl, .refl _, .refl _⟩

theorem push (h : AlikeBuffer σ τ bound b c) {s t : String} (hst : Alike σ τ bound s t) :
    AlikeBuffer σ τ bound (b.push s) (c.push t) := by
  unfold LineBuffer.push
  rw [← h.line.isEmpty_eq, ← hst.isEmpty_eq]
  split
  · refine ⟨h.unit, h.depth, h.finished, ?_⟩
    rw [h.unit, h.depth]
    exact hst.text_append _
  · exact ⟨h.unit, h.depth, h.finished, h.line.append hst⟩

theorem newline (h : AlikeBuffer σ τ bound b c) :
    AlikeBuffer σ τ bound b.newline c.newline :=
  ⟨h.unit, h.depth, (h.finished.append h.line).append_text "\n", .refl ""⟩

theorem addLine (h : AlikeBuffer σ τ bound b c) {s t : String} (hst : Alike σ τ bound s t) :
    AlikeBuffer σ τ bound (b.addLine s) (c.addLine t) :=
  (h.push hst).newline

theorem addLines {xs ys : List String} (hs : List.Forall₂ (Alike σ τ bound) xs ys) :
    ∀ {b c : LineBuffer}, AlikeBuffer σ τ bound b c →
      AlikeBuffer σ τ bound (b.addLines xs) (c.addLines ys) := by
  induction hs with
  | nil => exact fun h => h
  | cons hst _ ih => exact fun h => ih (h.addLine hst)

theorem indented {body body' : LineBuffer → LineBuffer} (h : AlikeBuffer σ τ bound b c)
    (hBody : ∀ {b c : LineBuffer}, AlikeBuffer σ τ bound b c →
      AlikeBuffer σ τ bound (body b) (body' c)) :
    AlikeBuffer σ τ bound (b.indented body) (c.indented body') := by
  have hIndent : AlikeBuffer σ τ bound b.indent c.indent :=
    ⟨h.unit, congrArg (· + 1) h.depth, h.finished, h.line⟩
  have hInner := hBody hIndent
  exact ⟨hInner.unit, congrArg (· - 1) hInner.depth, hInner.finished, hInner.line⟩

theorem text (h : AlikeBuffer σ τ bound b c) : Alike σ τ bound b.text c.text :=
  h.finished.append h.line

end AlikeBuffer

theorem alike_liquidTag {xs ys : List String} (h : List.Forall₂ (Alike σ τ bound) xs ys) :
    Alike σ τ bound (Block.liquidTag xs) (Block.liquidTag ys) := by
  refine AlikeBuffer.text (AlikeBuffer.push ?_ (.refl _))
  exact (AlikeBuffer.refl _).indented fun hInner => hInner.addLines h

theorem alike_tag {s t : String} (h : Alike σ τ bound s t) :
    Alike σ τ bound (Block.tag s) (Block.tag t) :=
  (h.text_append _).append_text _

/-! ## Attributes -/

namespace Markup

/-- Attribute values that are one flag or alike texts. -/
inductive AlikeValue (σ τ : Numbering) (bound : Nat) : AttributeValue → AttributeValue → Prop
  | flag (value : Bool) : AlikeValue σ τ bound (.flag value) (.flag value)
  | text {s t : String} (h : Alike σ τ bound s t) : AlikeValue σ τ bound (.text s) (.text t)

/-- Attributes with one name and alike values. -/
structure AlikeEntry (σ τ : Numbering) (bound : Nat) (x y : String × AttributeValue) : Prop where
  name : x.1 = y.1
  value : AlikeValue σ τ bound x.2 y.2

/-- Bound attributes with one name and alike values. -/
structure AlikeBound (σ τ : Numbering) (bound : Nat) (x y : BoundAttribute) : Prop where
  name : x.name = y.name
  value : Alike σ τ bound x.value y.value

/-- Attribute maps with the same names in the same order and alike values. -/
abbrev AlikeEntries (σ τ : Numbering) (bound : Nat) :
    List (String × AttributeValue) → List (String × AttributeValue) → Prop :=
  List.Forall₂ (AlikeEntry σ τ bound)

theorem AlikeEntries.refl (entries : List (String × AttributeValue)) :
    AlikeEntries σ τ bound entries entries := by
  induction entries with
  | nil => exact .nil
  | cons entry rest ih =>
      refine .cons ⟨rfl, ?_⟩ ih
      cases entry.2 with
      | flag value => exact .flag value
      | text value => exact .text (.refl value)

theorem AlikeBound.mono {a b : Nat} {x y : BoundAttribute} (hab : a ≤ b)
    (h : AlikeBound σ τ a x y) : AlikeBound σ τ b x y :=
  ⟨h.name, h.value.mono hab⟩

theorem AlikeEntries.write {xs ys : List (String × AttributeValue)} {v w : AttributeValue}
    (name : String) (hvw : AlikeValue σ τ bound v w) (h : AlikeEntries σ τ bound xs ys) :
    AlikeEntries σ τ bound (OrderedMap.write name v xs) (OrderedMap.write name w ys) := by
  induction h with
  | nil => exact .cons ⟨rfl, hvw⟩ .nil
  | cons hxy hRest ih =>
      simp only [OrderedMap.write, ← hxy.name]
      split
      · exact .cons ⟨rfl, hvw⟩ hRest
      · exact .cons hxy ih

/-- The values of a name are missing in both maps or alike. -/
theorem AlikeEntries.lookup {xs ys : List (String × AttributeValue)} (name : String)
    (h : AlikeEntries σ τ bound xs ys) :
    Option.Rel (AlikeValue σ τ bound) (xs.lookup name) (ys.lookup name) := by
  induction h with
  | nil => exact .none
  | @cons x y xs ys hxy _ ih =>
      obtain ⟨xName, xValue⟩ := x
      obtain ⟨yName, yValue⟩ := y
      obtain rfl : xName = yName := hxy.name
      rw [OrderedMap.lookup_cons_eq_ite, OrderedMap.lookup_cons_eq_ite]
      split
      · exact .some hxy.value
      · exact ih

theorem alike_joinValues {s s' t t' : String} (hs : Alike σ τ bound s s')
    (ht : Alike σ τ bound t t') : Alike σ τ bound (joinValues s t) (joinValues s' t') := by
  unfold joinValues
  rw [← hs.isEmpty_eq]
  split
  · exact ht
  · exact (hs.append_text " ").append ht

theorem alike_mergedValue {v w : Option AttributeValue} {x y : BoundAttribute}
    (hvw : Option.Rel (AlikeValue σ τ bound) v w) (hxy : AlikeBound σ τ bound x y) :
    AlikeValue σ τ bound (mergedValue v x) (mergedValue w y) := by
  cases hvw with
  | none => exact .text hxy.value
  | some hValue =>
      cases hValue with
      | flag value => exact .text hxy.value
      | text hText =>
          simp only [mergedValue, ← hxy.name]
          split
          · exact .text (alike_joinValues hText hxy.value)
          · exact .text hxy.value

theorem alike_mergeAll {xs ys : List BoundAttribute}
    (hBound : List.Forall₂ (AlikeBound σ τ bound) xs ys) :
    ∀ {m n : OrderedMap AttributeValue}, AlikeEntries σ τ bound m.entries n.entries →
      AlikeEntries σ τ bound (mergeAll m xs).entries (mergeAll n ys).entries := by
  induction hBound with
  | nil => exact fun h => h
  | cons hxy _ ih =>
      intro m n h
      refine ih ?_
      simp only [merge, OrderedMap.entries_insert, ← hxy.name]
      exact h.write _ (alike_mergedValue (h.lookup _) hxy)

theorem alike_attributeText {x y : String × AttributeValue} (h : AlikeEntry σ τ bound x y) :
    Alike σ τ bound (attributeText x.1 x.2) (attributeText y.1 y.2) := by
  obtain ⟨xName, xValue⟩ := x
  obtain ⟨yName, yValue⟩ := y
  obtain ⟨rfl, hValue⟩ : xName = yName ∧ AlikeValue σ τ bound xValue yValue := ⟨h.name, h.value⟩
  cases hValue with
  | flag value => exact .refl _
  | text hText => exact (hText.text_append _).append_text "\""

theorem alike_attributesText (attributes : OrderedMap AttributeValue) {xs ys : List BoundAttribute}
    (h : List.Forall₂ (AlikeBound σ τ bound) xs ys) :
    Alike σ τ bound (attributesText attributes xs) (attributesText attributes ys) := by
  have hEntries := alike_mergeAll h (AlikeEntries.refl attributes.entries)
  have hTexts : List.Forall₂ (Alike σ τ bound)
      ((mergeAll attributes xs).entries.map fun entry => attributeText entry.1 entry.2)
      ((mergeAll attributes ys).entries.map fun entry => attributeText entry.1 entry.2) := by
    rw [List.forall₂_map_left_iff, List.forall₂_map_right_iff]
    exact hEntries.imp fun _ _ hEntry => alike_attributeText hEntry
  refine Alike.intercalate " " (Alike.filter _ ?_ hTexts)
  intro u v huv
  rw [huv.isEmpty_eq]

/-! ## Tags -/

theorem alike_openingTag (tag : String) {s t : String} (h : Alike σ τ bound s t) :
    Alike σ τ bound (openingTag tag s) (openingTag tag t) := by
  unfold openingTag
  rw [← h.isEmpty_eq]
  split
  · exact .refl _
  · exact (h.text_append _).append_text ">"

theorem alike_tagged (tag : String) {s s' t t' : String} (hs : Alike σ τ bound s s')
    (ht : Alike σ τ bound t t') : Alike σ τ bound (tagged tag s t) (tagged tag s' t') := by
  unfold tagged
  split
  · exact alike_openingTag tag hs
  · exact ((((alike_openingTag tag hs).append ht).append_text _).append_text _).append_text _

theorem alike_plainText (element : Element) {s t : String} (h : Alike σ τ bound s t) :
    Alike σ τ bound (plainText element s) (plainText element t) := by
  unfold plainText
  split
  · exact h
  · exact alike_tagged _ (.refl _) h

end Markup

end PagePress
