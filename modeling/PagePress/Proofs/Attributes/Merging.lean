import PagePress.Markup.Attribute

/-!
# Merged attributes

Bound attributes are merged into the static ones one after the other. What comes of a name depends
on the values that are bound to it and on its static value alone. For most names the last value
wins. The values of `class` and `style` add up behind a static text, but a static flag gives way to
them. A name keeps its place; new names come behind the static ones in the order of their first
value.

## Main results

* `keys_mergeAll` — the names of merged attributes, in order.
* `get?_mergeAll` — the value of a name is its static value with the values bound to it merged in.
* `attributesText_merges` — the attributes of a tag.
-/

namespace PagePress.Markup

variable {attributes : OrderedMap AttributeValue} {name : String}

/-! ## Names in order -/

/-- The names of bound attributes that are not there yet, each once, in the order of their first
value. -/
def newNames (names : List String) (bound : List BoundAttribute) : List String :=
  ((bound.map BoundAttribute.name).filter fun name => name ∉ names).eraseDups

theorem newNames_cons_of_mem {names : List String} {item : BoundAttribute} (h : item.name ∈ names)
    (rest : List BoundAttribute) : newNames names (item :: rest) = newNames names rest := by
  rw [newNames, List.map_cons, List.filter_cons_of_neg (by simpa using h), newNames]

theorem newNames_cons_of_not_mem {names : List String} {item : BoundAttribute}
    (h : item.name ∉ names) (rest : List BoundAttribute) :
    newNames names (item :: rest) = item.name :: newNames (names ++ [item.name]) rest := by
  have hRest : ∀ others : List String,
      (others.filter fun name => name ∉ names).filter (fun name => !name == item.name) =
        others.filter fun name => name ∉ names ++ [item.name] := by
    intro others
    rw [List.filter_filter]
    refine List.filter_congr fun name _ => ?_
    by_cases hName : name = item.name <;> simp [hName]
  rw [newNames, List.map_cons, List.filter_cons_of_pos (by simpa using h), List.eraseDups_cons,
    hRest, newNames]

/-- The names of merged attributes: the static ones in their order, then the new ones. -/
theorem keys_mergeAll (attributes : OrderedMap AttributeValue) (bound : List BoundAttribute) :
    (mergeAll attributes bound).keys = attributes.keys ++ newNames attributes.keys bound := by
  induction bound generalizing attributes with
  | nil => exact (List.append_nil _).symm
  | cons item rest ih =>
      have hRest := ih (merge attributes item)
      rw [mergeAll, List.foldl_cons, ← mergeAll, hRest, merge]
      by_cases hName : item.name ∈ attributes.keys
      · rw [OrderedMap.keys_insert_of_mem hName, newNames_cons_of_mem hName]
      · rw [OrderedMap.keys_insert_of_not_mem hName, newNames_cons_of_not_mem hName,
          List.append_assoc, List.singleton_append]

/-! ## The value of a name -/

/-- The values that are bound to a name, in order. -/
def valuesOf (name : String) (bound : List BoundAttribute) : List String :=
  (bound.filter fun item => item.name = name).map BoundAttribute.value

/-- A value bound to a name, merged into the value that is there. -/
def settle (name : String) (present : Option AttributeValue) (value : String) :
    Option AttributeValue :=
  some (mergedValue present ⟨name, value⟩)

/-- The value of a name does not depend on what is bound to other names. -/
theorem get?_mergeAll (name : String) (bound : List BoundAttribute)
    (attributes : OrderedMap AttributeValue) :
    (mergeAll attributes bound).get? name =
      (valuesOf name bound).foldl (settle name) (attributes.get? name) := by
  induction bound generalizing attributes with
  | nil => rfl
  | cons item rest ih =>
      rw [mergeAll, List.foldl_cons, ← mergeAll, ih, merge, OrderedMap.get?_insert]
      by_cases hName : item.name = name
      · subst hName
        simp [valuesOf, settle]
      · simp [valuesOf, hName, Ne.symm hName]

theorem settle_of_text (hMulti : isMultiValue name = true) (existing value : String) :
    settle name (some (.text existing)) value = some (.text (joinValues existing value)) := by
  simp [settle, mergedValue, hMulti]

theorem settle_of_single (hSingle : isMultiValue name = false) (present : Option AttributeValue)
    (value : String) : settle name present value = some (.text value) := by
  unfold settle mergedValue
  split
  · simp [hSingle]
  · rfl

/-- Of the values of a name that do not add up the last one is left. -/
theorem foldl_settle_of_single (hSingle : isMultiValue name = false) (values : List String)
    (present : Option AttributeValue) :
    values.foldl (settle name) present = (values.getLast?.map .text).or present := by
  induction values generalizing present with
  | nil => rfl
  | cons value rest ih =>
      rw [List.foldl_cons, ih, settle_of_single hSingle, List.getLast?_cons]
      cases rest.getLast? <;> rfl

/-! ## Values that add up -/

/-- Values with a space between them. Empty values at the start add nothing. -/
def spaced (values : List String) : String :=
  " ".intercalate (values.dropWhile String.isEmpty)

theorem spaced_cons_of_ne_empty {first : String} (h : first ≠ "") (rest : List String) :
    spaced (first :: rest) = " ".intercalate (first :: rest) := by
  rw [spaced, List.dropWhile_cons_of_neg (by rwa [String.isEmpty_iff])]

theorem spaced_joinValues (first second : String) (rest : List String) :
    spaced (joinValues first second :: rest) = spaced (first :: second :: rest) := by
  by_cases hFirst : first = ""
  · subst hFirst
    rfl
  · have hJoined : joinValues first second = first ++ " " ++ second :=
      if_neg (by rwa [String.isEmpty_iff])
    rw [hJoined, spaced_cons_of_ne_empty hFirst, spaced_cons_of_ne_empty (by simp)]
    cases rest with
    | nil => simp
    | cons third rest => simp [String.append_assoc]

theorem foldl_joinValues (first : String) (rest : List String) :
    rest.foldl joinValues first = spaced (first :: rest) := by
  induction rest generalizing first with
  | nil =>
      by_cases hFirst : first = ""
      · subst hFirst
        rfl
      · rw [spaced_cons_of_ne_empty hFirst, String.intercalate_singleton, List.foldl_nil]
  | cons second rest ih => rw [List.foldl_cons, ih, spaced_joinValues]

/-- Values that add up are kept behind a text. -/
theorem foldl_settle_text (hMulti : isMultiValue name = true) (existing : String)
    (values : List String) :
    values.foldl (settle name) (some (.text existing)) =
      some (.text (spaced (existing :: values))) := by
  rw [← foldl_joinValues]
  induction values generalizing existing with
  | nil => rfl
  | cons value rest ih => rw [List.foldl_cons, settle_of_text hMulti, ih, List.foldl_cons]

/-- A static flag gives way to the values that add up. -/
theorem foldl_settle_multi (hMulti : isMultiValue name = true) (present : Option AttributeValue)
    (values : List String) :
    values.foldl (settle name) present =
      match present, values with
      | some (.text existing), values => some (.text (spaced (existing :: values)))
      | present, [] => present
      | _, values => some (.text (spaced values)) := by
  have hFirst : ∀ (present : Option AttributeValue) (value : String) (rest : List String),
      settle name present value = some (.text value) →
      (value :: rest).foldl (settle name) present = some (.text (spaced (value :: rest))) := by
    intro present value rest hValue
    rw [List.foldl_cons, hValue, foldl_settle_text hMulti]
  match present, values with
  | some (.text existing), values => exact foldl_settle_text hMulti existing values
  | some (.flag _), [] => rfl
  | some (.flag _), value :: rest => exact hFirst _ value rest rfl
  | none, [] => rfl
  | none, value :: rest => exact hFirst _ value rest rfl

theorem isMultiValue_iff (name : String) :
    isMultiValue name = true ↔ name = "class" ∨ name = "style" := by
  simp [isMultiValue, multiValueNames]

/-! ## The text of a tag -/

/-- Whether an attribute is nothing in a tag: it is off, or it is on and has no name. -/
def showsNothing : String × AttributeValue → Bool
  | (name, .flag on) => !on || name.isEmpty
  | (_, .text _) => false

/-- An attribute as it stands in a tag: a text behind the name and in quotes, or the name alone. -/
def written : String × AttributeValue → String
  | (name, .text value) => name ++ "=\"" ++ value ++ "\""
  | (name, .flag on) => if on then name else ""

theorem attributeText_eq_written (entry : String × AttributeValue) :
    attributeText entry.1 entry.2 = written entry := by
  obtain ⟨name, value⟩ := entry
  cases value with
  | flag on => cases on <;> rfl
  | text value => rfl

theorem showsNothing_eq (entry : String × AttributeValue) :
    showsNothing entry = (written entry).isEmpty := by
  obtain ⟨name, value⟩ := entry
  cases value with
  | flag on => cases on <;> simp [written, showsNothing]
  | text value => simp [written, showsNothing]

/-- Attributes in a line, without those that are nothing. -/
def lineOf (entries : List (String × AttributeValue)) : String :=
  " ".intercalate ((entries.filter fun entry => !showsNothing entry).map written)

theorem attributesText_eq (attributes : OrderedMap AttributeValue) (bound : List BoundAttribute) :
    attributesText attributes bound = lineOf (mergeAll attributes bound).entries := by
  rw [attributesText, lineOf, List.filter_map]
  simp only [Function.comp_def, showsNothing_eq, attributeText_eq_written]

/-- The attributes of a tag. Every name is there at most once: the static names in their order, then
the new ones in the order of their first value. A name has the last value that is bound to it, or
its static value when there is none; for `class` and `style` a static text and all bound values are
kept in order, and a static flag gives way to the bound values. What is nothing in a tag is left
out, and the others stand in a line with single spaces. -/
theorem attributesText_merges (attributes : OrderedMap AttributeValue)
    (bound : List BoundAttribute) :
    ∃ merged : OrderedMap AttributeValue,
      attributesText attributes bound = lineOf merged.entries ∧
      merged.keys = attributes.keys ++ newNames attributes.keys bound ∧
      (attributes.keys ++ newNames attributes.keys bound).Nodup ∧
      (∀ entry, showsNothing entry = true ↔ written entry = "") ∧
      ∀ name, merged.get? name =
        if name = "class" ∨ name = "style" then
          match attributes.get? name, valuesOf name bound with
          | some (.text existing), values => some (.text (spaced (existing :: values)))
          | present, [] => present
          | _, values => some (.text (spaced values))
        else ((valuesOf name bound).getLast?.map .text).or (attributes.get? name) := by
  have hKeys := keys_mergeAll attributes bound
  refine ⟨mergeAll attributes bound, attributesText_eq attributes bound, hKeys, ?_, ?_, ?_⟩
  · rw [← hKeys]
    exact (mergeAll attributes bound).distinct
  · intro entry
    rw [showsNothing_eq, String.isEmpty_iff]
  · intro name
    rw [get?_mergeAll]
    by_cases hMulti : name = "class" ∨ name = "style"
    · rw [if_pos hMulti, foldl_settle_multi ((isMultiValue_iff name).2 hMulti)]
    · rw [if_neg hMulti]
      have hSingle : isMultiValue name = false := by rwa [← Bool.not_eq_true, isMultiValue_iff]
      exact foldl_settle_of_single hSingle _ _

/-- A flag gives way to the values of `style`, and a text is kept in front of those of `class`. -/
example :
    attributesText
        (.ofList [("style", .flag true), ("class", .text "a"), ("hidden", .flag false)])
        [⟨"class", "b"⟩, ⟨"src", "x"⟩, ⟨"style", ""⟩, ⟨"src", "y"⟩, ⟨"style", "c"⟩] =
      "style=\"c\" class=\"a b\" src=\"y\"" := by
  cbv

end PagePress.Markup
