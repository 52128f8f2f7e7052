import Mathlib.Data.List.Nodup
import PagePress.Markup.Rendering
import PagePress.Proofs.Attributes.Merging
import PagePress.Proofs.Runs
import PagePress.Proofs.Steps

/-!
# Static values between quotes

A static value stands between double quotes with its ampersands and its quotes written as entities.
Ampersands are written first, so an entity that was in the text before is a text like any other, and
reading the entities once gives the text back. This holds for every attribute of an element to which
no value is bound, whether the element has bindings or not, and for its classes, which take the
place of an attribute `class`.

## Main results

* `decodeEntities_escape` — reading the entities of an escaped text gives the text.
* `returns_renderComponent` — the tag in the markup of a component with bindings.
* `staticValues_lossless` — what stands between the quotes of a static attribute.
-/

namespace PagePress

/-- A key has one entry. -/
theorem OrderedMap.exists_split_of_get? {α : Type} {m : OrderedMap α} {key : String} {value : α}
    (h : m.get? key = some value) :
    ∃ before after, m.entries = before ++ (key, value) :: after ∧
      ∀ entry ∈ before ++ after, entry.1 ≠ key := by
  obtain ⟨before, after, hEntries, -⟩ := List.lookup_eq_some_iff.1 h
  have hDistinct := m.distinct
  rw [hEntries, List.map_append, List.map_cons, List.nodup_middle, List.nodup_cons,
    ← List.map_append] at hDistinct
  exact ⟨before, after, hEntries, fun entry hEntry hKey =>
    hDistinct.1 (List.mem_map.2 ⟨entry, hEntry, hKey⟩)⟩

namespace Markup

/-! ## Entities -/

/-- A text with the entities of ampersand and double quote read, once and from the left. -/
def decodeEntities : List Char → List Char
  | '&' :: 'a' :: 'm' :: 'p' :: ';' :: rest => '&' :: decodeEntities rest
  | '&' :: 'q' :: 'u' :: 'o' :: 't' :: ';' :: rest => '"' :: decodeEntities rest
  | c :: rest => c :: decodeEntities rest
  | [] => []

theorem decodeEntities_cons_of_ne {c : Char} (h : c ≠ '&') (rest : List Char) :
    decodeEntities (c :: rest) = c :: decodeEntities rest := by
  rw [decodeEntities]
  · rintro _ rfl
    exact absurd rfl h
  · rintro _ rfl
    exact absurd rfl h

/-- What a character of a text is written as: an entity, or itself. -/
theorem attributeEntity_cases (c : Char) :
    c = '&' ∧ Text.attributeEntity c = "&amp;".toList ∨
      c = '"' ∧ Text.attributeEntity c = "&quot;".toList ∨
      c ≠ '&' ∧ c ≠ '"' ∧ Text.attributeEntity c = [c] := by
  unfold Text.attributeEntity
  by_cases hAmpersand : c = '&'
  · exact .inl ⟨hAmpersand, if_pos hAmpersand⟩
  · rw [if_neg hAmpersand]
    by_cases hQuote : c = '"'
    · exact .inr (.inl ⟨hQuote, if_pos hQuote⟩)
    · exact .inr (.inr ⟨hAmpersand, hQuote, if_neg hQuote⟩)

theorem decodeEntities_escape (cs : List Char) :
    decodeEntities (cs.flatMap Text.attributeEntity) = cs := by
  induction cs with
  | nil => rfl
  | cons c rest ih =>
      rw [List.flatMap_cons]
      rcases attributeEntity_cases c with ⟨rfl, hText⟩ | ⟨rfl, hText⟩ | ⟨hOther, -, hText⟩
      · rw [hText]
        exact congrArg ('&' :: ·) ih
      · rw [hText]
        exact congrArg ('"' :: ·) ih
      · rw [hText, List.singleton_append, decodeEntities_cons_of_ne hOther, ih]

theorem escapeAttribute_inj {first second : String}
    (h : Text.escapeAttribute first = Text.escapeAttribute second) : first = second := by
  rw [← String.toList_inj, Text.escapeAttribute, Text.toList_replaceChars,
    Text.toList_replaceChars] at h
  have hDecoded := congrArg decodeEntities h
  rw [decodeEntities_escape, decodeEntities_escape] at hDecoded
  exact String.toList_inj.1 hDecoded

/-- A text may stand between double quotes: there is no quote in it, and every ampersand starts one
of the two entities. -/
structure IsQuotable (cs : List Char) : Prop where
  noQuote : '"' ∉ cs
  ampersand : ∀ before after, cs = before ++ '&' :: after →
    "amp;".toList <+: after ∨ "quot;".toList <+: after

theorem IsQuotable.nil : IsQuotable [] :=
  ⟨List.not_mem_nil, fun before after h => by cases before <;> cases h⟩

theorem IsQuotable.cons {c : Char} {cs : List Char} (h : IsQuotable cs) (hQuote : c ≠ '"')
    (hStart : c = '&' → "amp;".toList <+: cs ∨ "quot;".toList <+: cs) : IsQuotable (c :: cs) where
  noQuote := by simp [Ne.symm hQuote, h.noQuote]
  ampersand before after hSplit := by
    cases before with
    | nil =>
        obtain ⟨rfl, rfl⟩ := List.cons.inj hSplit
        exact hStart rfl
    | cons first before => exact h.ampersand before after (List.cons.inj hSplit).2

/-- Letters without quotes and ampersands do not matter. -/
theorem IsQuotable.append {cs : List Char} (h : IsQuotable cs) {letters : List Char}
    (hLetters : ∀ c ∈ letters, c ≠ '"' ∧ c ≠ '&') : IsQuotable (letters ++ cs) := by
  induction letters with
  | nil => exact h
  | cons letter rest ih =>
      obtain ⟨⟨hQuote, hAmpersand⟩, hRest⟩ := List.forall_mem_cons.1 hLetters
      exact (ih hRest).cons hQuote fun hStart => absurd hStart hAmpersand

theorem isQuotable_escape (cs : List Char) : IsQuotable (cs.flatMap Text.attributeEntity) := by
  induction cs with
  | nil => exact .nil
  | cons c rest ih =>
      rw [List.flatMap_cons]
      rcases attributeEntity_cases c with ⟨rfl, hText⟩ | ⟨rfl, hText⟩ | ⟨hOther, hQuote, hText⟩
      · have hLetters : ∀ c ∈ "amp;".toList, c ≠ '"' ∧ c ≠ '&' := by simp
        rw [hText]
        exact (ih.append hLetters).cons (by decide) fun _ => .inl (List.prefix_append _ _)
      · have hLetters : ∀ c ∈ "quot;".toList, c ≠ '"' ∧ c ≠ '&' := by simp
        rw [hText]
        exact (ih.append hLetters).cons (by decide) fun _ => .inr (List.prefix_append _ _)
      · rw [hText]
        exact ih.append (by simpa using ⟨hQuote, hOther⟩)

/-! ## Static values -/

/-- The classes of an element that have a name. -/
def namedClasses (element : Element) : List String :=
  element.classes.filter fun name => !name.isEmpty

/-- The text of an attribute, when it is not a flag. -/
def ownText? (element : Element) (name : String) : Option String :=
  match element.attributes.get? name with
  | some (.text text) => some text
  | _ => none

/-- The text of a static attribute. That of `class` is the classes with a space between them, when
there are any. -/
def staticText? (element : Element) (name : String) : Option String :=
  if name = "class" ∧ namedClasses element ≠ [] then some (" ".intercalate (namedClasses element))
  else ownText? element name

theorem get?_mapValues_escapeValue {element : Element} {name text : String}
    (h : ownText? element name = some text) :
    (element.attributes.mapValues escapeValue).get? name =
      some (.text (Text.escapeAttribute text)) := by
  rw [OrderedMap.get?_mapValues]
  unfold ownText? at h
  split at h
  · rename_i hValue
    cases h
    rw [hValue]
    rfl
  · cases h

theorem staticAttributes_of_noClasses {element : Element} (h : namedClasses element = []) :
    staticAttributes element = element.attributes.mapValues escapeValue :=
  if_pos (List.isEmpty_iff.2 h)

theorem staticAttributes_of_classes {element : Element} (h : namedClasses element ≠ []) :
    staticAttributes element = (element.attributes.mapValues escapeValue).insert "class"
      (.text (Text.escapeAttribute (" ".intercalate (namedClasses element)))) :=
  if_neg fun hEmpty => h (List.isEmpty_iff.1 hEmpty)

/-- The value of a static attribute is its text, escaped. -/
theorem get?_staticAttributes {element : Element} {name text : String}
    (h : staticText? element name = some text) :
    (staticAttributes element).get? name = some (.text (Text.escapeAttribute text)) := by
  rw [staticText?] at h
  by_cases hClasses : namedClasses element = []
  · rw [if_neg fun hBoth => hBoth.2 hClasses] at h
    rw [staticAttributes_of_noClasses hClasses, get?_mapValues_escapeValue h]
  · rw [staticAttributes_of_classes hClasses, OrderedMap.get?_insert]
    by_cases hName : name = "class"
    · rw [if_pos ⟨hName, hClasses⟩] at h
      rw [if_pos hName, Option.some.inj h]
    · rw [if_neg fun hBoth => hName hBoth.1] at h
      rw [if_neg hName, get?_mapValues_escapeValue h]

/-- In a line of attributes a name stands once, with a value. -/
def HasValue (line name value : String) : Prop :=
  ∃ before after : List (String × AttributeValue),
    line = lineOf (before ++ (name, .text value) :: after) ∧
      ∀ entry ∈ before ++ after, entry.1 ≠ name

/-- A tag with a line of attributes around content, which a void element does not show. -/
def tagAround (tag line content : String) : String :=
  "<" ++ tag ++ " " ++ line ++ ">" ++ if isVoid tag then "" else content ++ "</" ++ tag ++ ">"

theorem HasValue.ne_empty {line name value : String} (h : HasValue line name value) :
    line ≠ "" := by
  obtain ⟨before, after, rfl, -⟩ := h
  have hWritten : written (name, .text value) ∈
      ((before ++ (name, .text value) :: after).filter fun entry => !showsNothing entry).map
        written :=
    List.mem_map_of_mem (List.mem_filter.2 ⟨by simp, rfl⟩)
  have hQuote : '"' ∈ (written (name, .text value)).toList := by simp [written]
  have hLine : '"' ∈ (lineOf (before ++ (name, .text value) :: after)).toList := by
    rw [lineOf, String.toList_intercalate]
    exact Text.mem_intercalate_of_mem _ (List.mem_map_of_mem hWritten) hQuote
  intro hEmpty
  rw [hEmpty] at hLine
  cases hLine

/-- A tag with attributes. -/
theorem HasValue.tagged_eq {line name value : String} (h : HasValue line name value)
    (tag content : String) : tagged tag line content = tagAround tag line content := by
  have hLine : line.isEmpty = false := by
    rw [← Bool.not_eq_true, String.isEmpty_iff]
    exact h.ne_empty
  unfold tagged tagAround openingTag
  rw [hLine]
  cases isVoid tag with
  | true => simp
  | false => simp [String.append_assoc]

/-- A name keeps its static value when none is bound to it. -/
theorem hasValue_attributesText {attributes : OrderedMap AttributeValue} {name value : String}
    (hStatic : attributes.get? name = some (.text value)) {bound : List BoundAttribute}
    (hFree : ∀ item ∈ bound, item.name ≠ name) :
    HasValue (attributesText attributes bound) name value := by
  have hNone : valuesOf name bound = [] := by
    rw [valuesOf, List.map_eq_nil_iff, List.filter_eq_nil_iff]
    simpa using hFree
  have hMerged : (mergeAll attributes bound).get? name = some (.text value) := by
    rw [get?_mergeAll, hNone, List.foldl_nil, hStatic]
  obtain ⟨before, after, hEntries, hOnce⟩ := OrderedMap.exists_split_of_get? hMerged
  exact ⟨before, after, by rw [attributesText_eq, hEntries], hOnce⟩

/-! ## Components with bindings -/

open Pass (Returns)

variable {resultType : Block.ResultType} {component : Component}

/-- Values are bound to attributes under the labels of bindings only. -/
def HasLabels (element : Element) (bound : List BoundAttribute) : Prop :=
  ∀ item ∈ bound, ∃ state ∈ attributeStates element, state.labelText = item.name

theorem returns_renderElement {element : Element} (hTag : element.unwrap = false)
    (tag content : String) :
    Returns (fun body => ∃ bound, HasLabels element bound ∧
        body = tagged tag (attributesText (staticAttributes element) bound) content)
      (renderElement element tag content) := by
  have hNamed : ∀ state ∈ attributeStates element,
      Returns (fun item => ∃ state ∈ attributeStates element, state.labelText = item.name)
        (renderAttribute element state) := fun state hState =>
    (Returns.any _).bind fun value _ => Returns.pure ⟨state, hState, rfl⟩
  unfold renderElement
  rw [hTag]
  exact (Returns.mapM hNamed).bind fun bound hBound => Returns.pure ⟨bound, hBound, rfl⟩

/-- The markup of a component with bindings is its tag, with its attributes, between the blocks of
its states, its loop and its condition. -/
theorem returns_renderComponent (hDynamic : isDynamic component.element = true)
    (hTag : component.element.unwrap = false) (content fallback : String) :
    Returns (fun markup => ∃ opening tag bound inner closing,
        component.element.tag? = some tag ∧ HasLabels component.element bound ∧
        markup = opening ++
          tagged tag (attributesText (staticAttributes component.element) bound) inner ++ closing)
      (renderComponent resultType component content fallback) := by
  have hRequired : ∀ tag, requireTag component.element = .ok tag →
      component.element.tag? = some tag := by
    intro tag hOk
    unfold requireTag at hOk
    split at hOk
    · rename_i hFound
      rw [hFound, Except.ok.inj hOk]
    · cases hOk
  unfold renderComponent
  simp only [hDynamic, Bool.not_true, Bool.false_eq_true, ↓reduceIte]
  refine (Returns.ofExcept hRequired).bind fun tag hFound => ?_
  refine (Returns.any _).bind fun inner _ => (Returns.any _).bind fun condition _ => ?_
  refine (Returns.any _).bind fun loop _ => (Returns.any _).bind fun states _ => ?_
  refine (returns_renderElement hTag tag inner).bind fun body hBody => Returns.pure ?_
  obtain ⟨bound, hBound, rfl⟩ := hBody
  exact ⟨_, tag, bound, inner, _, hFound, hBound, String.append_assoc⟩

/-! ## Elements -/

/-- What stands between the quotes of a static attribute, or of the classes of an element: the text,
escaped. It holds no quote and no ampersand but those that start an entity, reading its entities
gives the text, and no other text is written the same way. It is the value of the attribute in the
tag of an element without bindings, and in that of a component with bindings none of which has the
label of the attribute. -/
theorem staticValues_lossless {component : Component} {name text : String}
    (hText : staticText? component.element name = some text) :
    IsQuotable (Text.escapeAttribute text).toList ∧
      decodeEntities (Text.escapeAttribute text).toList = text.toList ∧
      (∀ other, Text.escapeAttribute other = Text.escapeAttribute text → other = text) ∧
      (∀ tag content, component.element.tag? = some tag →
        ∃ line, plainText component.element content = tagAround tag line content ∧
          HasValue line name (Text.escapeAttribute text)) ∧
      ∀ resultType content fallback context markup next,
        isDynamic component.element = true → component.element.unwrap = false →
        (∀ state ∈ attributeStates component.element, state.labelText ≠ name) →
        (renderComponent resultType component content fallback).runIn context =
          (.ok markup, next) →
        ∃ opening tag line inner closing, component.element.tag? = some tag ∧
          markup = opening ++ tagAround tag line inner ++ closing ∧
          HasValue line name (Text.escapeAttribute text) := by
  have hStatic := get?_staticAttributes hText
  have hWritten : (Text.escapeAttribute text).toList = text.toList.flatMap Text.attributeEntity :=
    Text.toList_replaceChars _ _
  refine ⟨?_, ?_, fun other => escapeAttribute_inj, ?_, ?_⟩
  · rw [hWritten]
    exact isQuotable_escape _
  · rw [hWritten, decodeEntities_escape]
  · intro tag content hTag
    have hFree : ∀ item ∈ ([] : List BoundAttribute), item.name ≠ name := by simp
    have hValue := hasValue_attributesText hStatic hFree
    refine ⟨_, ?_, hValue⟩
    rw [← hValue.tagged_eq]
    simp only [plainText, hTag]
  · intro resultType content fallback context markup next hDynamic hTagged hFree hRun
    obtain ⟨opening, tag, bound, inner, closing, hTag, hBound, hMarkup⟩ :=
      returns_renderComponent hDynamic hTagged content fallback context markup next hRun
    have hOther : ∀ item ∈ bound, item.name ≠ name := by
      intro item hItem hName
      obtain ⟨state, hState, hLabel⟩ := hBound item hItem
      exact hFree state hState (hLabel.trans hName)
    have hValue := hasValue_attributesText hStatic hOther
    exact ⟨opening, tag, _, inner, closing, hTag, by rw [hMarkup, hValue.tagged_eq], hValue⟩

/-- A link with an entity in its title and with classes that need escaping, whose address is
bound. -/
def titledLink : Element where
  id := "c1"
  tagName := some "A"
  attributes := .ofList [("class", .text "old"), ("title", .text "&amp;quot; \"b\"")]
  classes := ["", "x&y", "\"z\""]
  privateStates := [⟨"href", none, false, [.property ⟨"url", "", none, [], .scalar, none⟩]⟩]

/-- The markup of the link. -/
def titledMarkup : String :=
  "<a class=\"x&amp;y &quot;z&quot;\" title=\"&amp;amp;quot; &quot;b&quot;\" href=\"" ++
    "\x7b% liquid\n  assign var_c1_0 = url\n  echo var_c1_0\n%\x7d\">text</a>"

theorem titledLink_lossless :
    staticText? titledLink "class" = some "x&y \"z\"" ∧
      Text.escapeAttribute "x&y \"z\"" = "x&amp;y &quot;z&quot;" ∧
      decodeEntities "x&amp;y &quot;z&quot;".toList = "x&y \"z\"".toList ∧
      plainText titledLink "text" =
        "<a class=\"x&amp;y &quot;z&quot;\" title=\"&amp;amp;quot; &quot;b&quot;\">text</a>" ∧
      (∃ line, plainText titledLink "text" = tagAround "a" line "text" ∧
        HasValue line "class" "x&amp;y &quot;z&quot;") ∧
      ∃ next opening tag line inner closing,
        (renderComponent (fun _ _ => none) (.leaf titledLink) "text" "").runIn
            (Context.start {} 0 []) = (.ok titledMarkup, next) ∧
          titledLink.tag? = some tag ∧
          titledMarkup = opening ++ tagAround tag line inner ++ closing ∧
          HasValue line "class" "x&amp;y &quot;z&quot;" := by
  have hText : staticText? titledLink "class" = some "x&y \"z\"" := by decide +kernel
  have hWritten : Text.escapeAttribute "x&y \"z\"" = "x&amp;y &quot;z&quot;" := by decide +kernel
  obtain ⟨-, hDecoded, -, hPlain, hBound⟩ :=
    staticValues_lossless (show staticText? (Component.leaf titledLink).element "class" =
      some "x&y \"z\"" from hText)
  rw [hWritten] at hDecoded hPlain hBound
  have hFree : ∀ state ∈ attributeStates titledLink, state.labelText ≠ "class" := by decide
  have hRun : (renderComponent (fun _ _ => none) (.leaf titledLink) "text" "").runIn
      (Context.start {} 0 []) =
        (.ok titledMarkup, { Context.start {} 0 [] with nextVariable := 1 }) := by
    decide +kernel
  obtain ⟨opening, tag, line, inner, closing, hTag, hMarkup, hValue⟩ :=
    hBound _ _ _ _ _ _ (by decide) rfl hFree hRun
  exact ⟨hText, hWritten, hDecoded, by decide +kernel, hPlain "a" "text" (by decide +kernel), _,
    opening, tag, line, inner, closing, hRun, hTag, hMarkup, hValue⟩

end Markup

end PagePress
