import PagePress.Json.Decode

/-!
# Reading back what was written

A type is written as JSON and read from it. Both are put together from the same parts: texts, flags,
lists, maps, choices, values that may be absent, and records of these. Each part is read back when
its own parts are. A record is written as the fields that are there, so a field is read from what
stands under its name in the list that was written, if anything does.

## Main results

* `ReadsBack.list`, `ReadsBack.map`, `ReadsBack.option` — parts that hold others.
* `exists_record` — a record that was written has the fields it was written with.
* `read_ofFields` — reading from a record that was written is reading from its fields.
* `fieldOr_map` — a field that is left out when it is absent is read back.
-/

namespace PagePress

namespace Json

variable {α : Type}

/-- Every value is read back from what is written of it. -/
def ReadsBack (write : α → Json) (read : Json → Except Error α) : Prop :=
  ∀ value, read (write value) = .ok value

/-! ## Values -/

@[simp] theorem asString_string (text : String) : asString (.string text) = .ok text := rfl

@[simp] theorem asBool_bool (value : Bool) : asBool (.bool value) = .ok value := rfl

/-- A choice is read back when its name is its own. -/
theorem readsBack_choice {payload : Json → Bool} {name : α → String} {named : String → Option α}
    (h : ∀ choice, named (name choice) = some choice) :
    ReadsBack (fun choice => .string (name choice)) (asChoiceWith payload named) := by
  intro choice
  rw [asChoiceWith, h]
  rfl

theorem mapM_map_eq_ok {β ε : Type} {write : α → β} {read : β → Except ε α} {items : List α}
    (h : ∀ item ∈ items, read (write item) = .ok item) :
    (items.map write).mapM read = .ok items := by
  induction items with
  | nil => rfl
  | cons item items ih =>
      have hItem := h item List.mem_cons_self
      have hItems := ih fun other hm => h other (List.mem_cons_of_mem _ hm)
      rw [List.map_cons, List.mapM_cons, hItem, hItems]
      rfl

variable {write : α → Json} {read : Json → Except Error α}

theorem ReadsBack.list (h : ReadsBack write read) : ReadsBack (ofList write) (asList read) :=
  fun _ => mapM_map_eq_ok fun item _ => h item

theorem ReadsBack.map (h : ReadsBack write read) : ReadsBack (ofMap write) (asMap read) := by
  intro m
  have hEntries : (m.mapValues write).entries.mapM (asMember read) = .ok m.entries := by
    apply mapM_map_eq_ok
    intro entry _
    rw [asMember, h]
    rfl
  rw [ofMap, asMap, hEntries]
  exact congrArg Except.ok m.ofList_entries

theorem asOption_of_ne_null {json : Json} (h : json ≠ .null) :
    asOption read json = (read json).map some := by
  cases json with
  | null => exact absurd rfl h
  | _ => rfl

theorem asOption_eq_some {json : Json} {value : α} (h : read json = .ok value)
    (hNull : json ≠ .null) :
    asOption read json = .ok (some value) := by
  rw [asOption_of_ne_null hNull, h]
  rfl

/-- A value that may be `null` is read back when nothing else is written as `null`. -/
theorem ReadsBack.option (h : ReadsBack write read) (hNull : ∀ value, write value ≠ .null) :
    ReadsBack (ofOption write) (asOption read) := by
  intro value
  cases value with
  | none => rfl
  | some value => exact asOption_eq_some (h value) (hNull value)

/-! ## Records -/

/-- The members of a record that is written: the fields that are there. -/
def written (fields : List (String × Option Json)) : Record :=
  fields.filterMap fun field => field.2.map fun value => (field.1, value)

theorem keys_written_sublist (fields : List (String × Option Json)) :
    ((written fields).map Prod.fst).Sublist (fields.map Prod.fst) := by
  induction fields with
  | nil => exact .slnil
  | cons field fields ih =>
      obtain ⟨name, _ | value⟩ := field
      · exact ih.cons name
      · exact ih.cons_cons name

/-- Under a name stands the field that was written with it, unless it was left out. -/
theorem lookup_written {fields : List (String × Option Json)}
    (hDistinct : (fields.map Prod.fst).Nodup) (name : String) :
    (written fields).lookup name = (fields.lookup name).join := by
  induction fields with
  | nil => rfl
  | cons field fields ih =>
      obtain ⟨key, value⟩ := field
      obtain ⟨hKey, hRest⟩ := List.nodup_cons.1 hDistinct
      rw [OrderedMap.lookup_cons_eq_ite]
      by_cases hName : name = key
      · subst hName
        rw [if_pos rfl]
        have hNone : (written fields).lookup name = none := by
          apply List.lookup_eq_none_iff.2
          intro member hm
          simp only [bne_iff_ne, ne_eq]
          rintro rfl
          exact hKey ((keys_written_sublist fields).subset (List.mem_map_of_mem hm))
        cases value with
        | none => exact hNone
        | some value => exact List.lookup_cons_self
      · rw [if_neg hName, ← ih hRest]
        cases value with
        | none => rfl
        | some value =>
            show ((key, value) :: written fields).lookup name = (written fields).lookup name
            rw [OrderedMap.lookup_cons_eq_ite, if_neg hName]

/-- A record that was written with all its fields in order has these fields. -/
theorem exists_record {names : List String} {fields : List (String × Option Json)}
    (hNames : fields.map Prod.fst = names) (hDistinct : names.Nodup) :
    ∃ record, asRecord names (ofFields fields) = .ok record ∧
      ∀ name, record.lookup name = (fields.lookup name).join := by
  subst hNames
  have hKeys := keys_written_sublist fields
  refine ⟨written fields, ?_, lookup_written hDistinct⟩
  apply record_object
  · exact fun member hm => hKeys.subset (List.mem_map_of_mem hm)
  · exact hKeys.nodup hDistinct

/-- What is read from the fields of a record that was written is read from the record. -/
theorem read_ofFields {names : List String} {fields : List (String × Option Json)}
    {fromRecord : Record → Except Error α} {value : α} (hNames : fields.map Prod.fst = names)
    (hDistinct : names.Nodup)
    (hRead : ∀ record : Record, (∀ name, record.lookup name = (fields.lookup name).join) →
      fromRecord record = .ok value) :
    (asRecord names (ofFields fields) >>= fromRecord) = .ok value := by
  obtain ⟨record, hRecord, hLookup⟩ := exists_record hNames hDistinct
  rw [hRecord]
  exact hRead record hLookup

/-! ## Fields -/

/-- A field read from what stands under its name, with a value for when nothing does. -/
def fieldOr (absent : α) (read : Json → Except Error α) : Option Json → Except Error α
  | some json => read json
  | none => .ok absent

@[simp] theorem fieldOr_some (absent : α) (json : Json) :
    fieldOr absent read (some json) = read json := rfl

@[simp] theorem Record.optional_eq (record : Record) (name : String) (absent : α) :
    record.optional name absent read = fieldOr absent read (record.lookup name) := rfl

@[simp] theorem Record.required_eq {record : Record} {name : String} {json : Json}
    (h : record.lookup name = some json) : record.required name read = read json := by
  rw [Record.required, h]

@[simp] theorem ok_bind {β ε : Type} (value : β) (next : β → Except ε α) :
    (Except.ok value >>= next) = next value := rfl

/-- A field that is written only when it is there is read back. -/
theorem fieldOr_map (h : ReadsBack write read) (hNull : ∀ value, write value ≠ .null)
    (value : Option α) : fieldOr none (asOption read) (value.map write) = .ok value := by
  cases value with
  | none => rfl
  | some value => exact h.option hNull (some value)

@[simp] theorem fieldOr_text (text : Option String) :
    fieldOr none (asOption asString) (text.map .string) = .ok text :=
  fieldOr_map asString_string (fun _ => nofun) text

@[simp] theorem asOption_string (text : String) :
    asOption asString (.string text) = .ok (some text) := rfl

@[simp] theorem asOption_bool (value : Bool) : asOption asBool (.bool value) = .ok (some value) :=
  rfl

@[simp] theorem asOption_text (text : Option String) :
    asOption asString (ofOption .string text) = .ok text :=
  ReadsBack.option asString_string (fun _ => nofun) text

end Json

end PagePress
