import PagePress.Markup.Tag
import PagePress.Proofs.Nesting.Texts

/-!
# Attributes and tags add no block tags

Names and static values of attributes are plain. A bound value is a tag around statements, which is
no tag of a block; merging keeps this, because a merged value is one of the two or both with a space
between them. So an opening tag adds nothing, and an element adds what its content adds.

## Main results

* `silent_attributesText` — the attributes of an element.
* `wellNested_tagged`, `wellNested_plainText` — an element around well nested content.
-/

namespace PagePress.Nesting

open Markup

/-! ## Elements with plain texts -/

/-- An element has plain texts only. -/
def PlainElement (element : Element) : Prop := ∀ text ∈ element.texts, IsPlain text

namespace PlainElement

variable {element : Element}

theorem id (h : PlainElement element) : IsPlain element.id := h _ List.mem_cons_self

theorem content (h : PlainElement element) : IsPlain element.content :=
  h _ (by simp [Element.texts])

theorem persistentId (h : PlainElement element) {id : String}
    (hId : element.persistentId? = some id) : IsPlain id := by
  have hPresent := (Option.filter_eq_some_iff.1 hId).1
  exact h _ (by simp [Element.texts, hPresent])

theorem tag (h : PlainElement element) {tag : String} (hTag : element.tag? = some tag) :
    IsPlain tag := by
  obtain ⟨name, hName, rfl⟩ := Option.map_eq_some_iff.1 hTag
  have hPresent := (Option.filter_eq_some_iff.1 hName).1
  exact isPlain_toLower (h _ (by simp [Element.texts, hPresent]))

theorem class_mem (h : PlainElement element) {name : String} (hName : name ∈ element.classes) :
    IsPlain name :=
  h _ (by simp [Element.texts, hName])

theorem attribute_mem (h : PlainElement element) {entry : String × AttributeValue}
    (hEntry : entry ∈ element.attributes.entries) :
    ∀ text ∈ entry.1 :: entry.2.texts, IsPlain text := by
  intro text hm
  have hTexts : text ∈ element.attributes.entries.flatMap fun other =>
      other.1 :: other.2.texts :=
    List.mem_flatMap.2 ⟨entry, hEntry, hm⟩
  exact h text (List.mem_append_left _ (List.mem_append_right _ hTexts))

theorem state_mem (h : PlainElement element) {state : StoredState}
    (hState : state ∈ element.privateStates ++ element.publicStates) :
    ∀ text ∈ state.texts, IsPlain text := by
  intro text hm
  have hTexts : text ∈
      (element.privateStates ++ element.publicStates).flatMap StoredState.texts :=
    List.mem_flatMap.2 ⟨state, hState, hm⟩
  exact h text (List.mem_append_right _ hTexts)

end PlainElement

/-! ## Attributes -/

/-- What is written of an attribute value adds no block tags. -/
def SilentValue : AttributeValue → Prop
  | .flag _ => True
  | .text value => Silent value

/-- The names and values of attributes add no block tags. -/
def SilentEntries (entries : List (String × AttributeValue)) : Prop :=
  ∀ entry ∈ entries, Silent entry.1 ∧ SilentValue entry.2

/-- What stands in a map after a write was written or stood there before. -/
theorem mem_write {α : Type} {name : String} {value : α} {entries : List (String × α)}
    {entry : String × α} (h : entry ∈ OrderedMap.write name value entries) :
    entry = (name, value) ∨ entry ∈ entries := by
  induction entries with
  | nil => exact .inl (List.mem_singleton.1 h)
  | cons first rest ih =>
      rw [OrderedMap.write] at h
      split at h
      · exact (List.mem_cons.1 h).imp_right (List.mem_cons_of_mem _)
      · rcases List.mem_cons.1 h with rfl | h
        · exact .inr List.mem_cons_self
        · exact (ih h).imp_right (List.mem_cons_of_mem _)

theorem SilentEntries.write {entries : List (String × AttributeValue)} (h : SilentEntries entries)
    {name : String} (hName : Silent name) {value : AttributeValue} (hValue : SilentValue value) :
    SilentEntries (OrderedMap.write name value entries) := by
  intro entry hm
  rcases mem_write hm with rfl | hm
  · exact ⟨hName, hValue⟩
  · exact h entry hm

theorem SilentEntries.lookup {entries : List (String × AttributeValue)} (h : SilentEntries entries)
    {name : String} {value : AttributeValue} (hValue : entries.lookup name = some value) :
    SilentValue value := by
  obtain ⟨before, after, rfl, -⟩ := List.lookup_eq_some_iff.1 hValue
  exact (h (name, value) (List.mem_append_right _ List.mem_cons_self)).2

/-- A merged value is one of the two values or both of them. -/
theorem silent_mergedValue {present : Option AttributeValue}
    (hPresent : ∀ value, present = some value → SilentValue value) {bound : BoundAttribute}
    (hBound : Silent bound.value) : SilentValue (mergedValue present bound) := by
  have hBlank : Silent " " := .of_isPlain (by decide)
  unfold mergedValue
  split
  · rename_i existing
    have hExisting : Silent existing := hPresent _ rfl
    split
    · show Silent (joinValues existing bound.value)
      unfold joinValues
      split
      · exact hBound
      · exact (hExisting.append hBlank).append hBound
    · exact hBound
  · exact hBound

theorem silentEntries_mergeAll {bound : List BoundAttribute}
    (hBound : ∀ item ∈ bound, Silent item.name ∧ Silent item.value) :
    ∀ {attributes : OrderedMap AttributeValue}, SilentEntries attributes.entries →
      SilentEntries (mergeAll attributes bound).entries := by
  induction bound with
  | nil => exact fun h => h
  | cons first rest ih =>
      intro attributes h
      obtain ⟨hName, hValue⟩ := hBound first List.mem_cons_self
      refine ih (fun other hm => hBound other (List.mem_cons_of_mem _ hm)) ?_
      exact h.write hName (silent_mergedValue (fun value hFound => h.lookup hFound) hValue)

theorem silent_attributeText {name : String} (hName : Silent name) {value : AttributeValue}
    (hValue : SilentValue value) : Silent (attributeText name value) := by
  have hEqual : Silent "=\"" := .of_isPlain (by decide)
  have hQuote : Silent "\"" := .of_isPlain (by decide)
  cases value with
  | flag on =>
      cases on with
      | true => exact hName
      | false => exact .of_isPlain (show IsPlain "" by decide)
  | text value => exact ((hName.append hEqual).append hValue).append hQuote

theorem silent_attributesText {attributes : OrderedMap AttributeValue}
    (hStatic : SilentEntries attributes.entries) {bound : List BoundAttribute}
    (hBound : ∀ item ∈ bound, Silent item.name ∧ Silent item.value) :
    Silent (attributesText attributes bound) := by
  have hEmpty : Silent "" := .of_isPlain (by decide)
  have hBlank : Silent " " := .of_isPlain (by decide)
  refine intercalate_induction hEmpty (fun _ _ => Silent.append) hBlank fun text hm => ?_
  obtain ⟨entry, hEntry, rfl⟩ := List.mem_map.1 (List.mem_filter.1 hm).1
  obtain ⟨hName, hValue⟩ := silentEntries_mergeAll hBound hStatic entry hEntry
  exact silent_attributeText hName hValue

/-! ## Static attributes -/

theorem isPlain_escapeAttribute {text : String} (h : IsPlain text) :
    IsPlain (Text.escapeAttribute text) := by
  refine isPlain_replaceChars (fun c hc => ?_) h
  unfold Text.attributeEntity
  split
  · decide
  · split
    · decide
    · simpa using Ne.symm hc

theorem silentEntries_staticAttributes {element : Element} (h : PlainElement element) :
    SilentEntries (staticAttributes element).entries := by
  have hValues : SilentEntries (element.attributes.mapValues escapeValue).entries := by
    intro entry hm
    obtain ⟨⟨name, value⟩, hEntry, rfl⟩ := List.mem_map.1 hm
    have hTexts := h.attribute_mem hEntry
    refine ⟨.of_isPlain (hTexts _ List.mem_cons_self), ?_⟩
    cases value with
    | flag on => trivial
    | text value =>
        exact Reads.of_isPlain (isPlain_escapeAttribute
          (hTexts value (List.mem_cons_of_mem _ List.mem_cons_self)))
  have hClasses : IsPlain
      (" ".intercalate (element.classes.filter fun name => !name.isEmpty)) :=
    isPlain_intercalate (by decide) fun name hm => h.class_mem (List.mem_filter.1 hm).1
  simp only [staticAttributes]
  split
  · exact hValues
  · exact hValues.write (.of_isPlain (by decide))
      (Reads.of_isPlain (isPlain_escapeAttribute hClasses))

/-! ## Tags -/

theorem silent_openingTag {tag attributes : String} (hTag : IsPlain tag)
    (hAttributes : Silent attributes) : Silent (openingTag tag attributes) := by
  have hStart : IsPlain "<" := by decide
  have hEnd : Silent ">" := .of_isPlain (by decide)
  unfold openingTag
  split
  · exact .of_isPlain ((hStart.append hTag).append (by decide))
  · exact (Silent.append (.of_isPlain ((hStart.append hTag).append (by decide)))
      hAttributes).append hEnd

/-- A void element drops its content, any other one is around it. -/
theorem wellNested_tagged {tag attributes content : String} (hTag : IsPlain tag)
    (hAttributes : Silent attributes) (hContent : WellNested content) :
    WellNested (tagged tag attributes content) := by
  have hOpening : WellNested (openingTag tag attributes) :=
    .of_silent (silent_openingTag hTag hAttributes)
  have hSlash : WellNested "</" := .of_silent (.of_isPlain (by decide))
  have hEnd : WellNested ">" := .of_silent (.of_isPlain (by decide))
  unfold tagged
  split
  · exact hOpening
  · exact (((hOpening.append hContent).append hSlash).append
      (.of_silent (.of_isPlain hTag))).append hEnd

theorem wellNested_plainText {element : Element} (h : PlainElement element) {content : String}
    (hContent : WellNested content) : WellNested (plainText element content) := by
  unfold plainText
  split
  · exact hContent
  · rename_i tag hTag
    have hAttributes := silent_attributesText (silentEntries_staticAttributes h)
      (fun item hm => absurd hm List.not_mem_nil)
    exact wellNested_tagged (h.tag hTag) hAttributes hContent

end PagePress.Nesting
