import PagePress.Expression.Stored
import PagePress.Proofs.Stored.Values

/-!
# Stored expressions are read back

A token is written as its record with the type in front. To read it, all its parts are looked at
first, then the type is taken out from wherever it stands, and what is left is the record again,
because no field of a token is called `type`.

## Main results

* `Token.splitType_ofFields` — the type comes off, and the fields stay.
* `readsBack_token`, `readsBack_expression` — tokens and expressions are read back.
-/

namespace PagePress

open Json

/-! ## Shapes -/

theorem Kind.named?_name (kind : Kind) : Kind.named? kind.name = some kind := by
  cases kind <;> rfl

@[simp] theorem readsBack_tokenKind (kind : Kind) : Kind.ofTokenJson kind.toJson = .ok kind :=
  readsBack_choice Kind.named?_name kind

@[simp] theorem readsBack_strings (texts : List String) : asStrings (ofStrings texts) = .ok texts :=
  ReadsBack.list asString_string texts

@[simp] theorem readsBack_values (values : OrderedMap Json.Value) :
    asValues (ofValues values) = .ok values :=
  readsBack_value.map values

/-! ## The records of tokens -/

theorem readsBack_property : ReadsBack (fun p => ofFields (Property.fields p)) Property.ofJson := by
  intro p
  apply read_ofFields
  · rfl
  · decide
  · intro record hLookup
    have hOptions := fieldOr_map readsBack_values (fun _ => nofun) p.options
    simp [hLookup, hOptions, Property.fields, List.lookup_cons]

theorem readsBack_stateRef : ReadsBack (fun s => ofFields (StateRef.fields s)) StateRef.ofJson := by
  intro s
  apply read_ofFields
  · rfl
  · decide
  · intro record hLookup
    have hForceKind := fieldOr_map readsBack_tokenKind (fun _ => nofun) s.forceKind
    simp [hLookup, hForceKind, StateRef.fields, List.lookup_cons]

theorem readsBack_filter : ReadsBack (fun f => ofFields (Filter.fields f)) Filter.ofJson := by
  intro f
  apply read_ofFields
  · rfl
  · decide
  · intro record hLookup
    simp [hLookup, Filter.fields, List.lookup_cons]

/-! ## Parts that are readable -/

@[simp] theorem readable_string (text : String) : Readable (.string text) := rfl

@[simp] theorem readable_bool (value : Bool) : Readable (.bool value) := rfl

@[simp] theorem readable_kind (kind : Kind) : Readable kind.toJson := rfl

@[simp] theorem readable_strings (texts : List String) : Readable (ofStrings texts) :=
  .ofList readable_string texts

@[simp] theorem readable_values (values : OrderedMap Json.Value) : Readable (ofValues values) :=
  .ofMap (fun value => .ofNormal value.normal) values

theorem Property.readable_fields (p : Property) :
    ∀ field ∈ p.fields, ∀ value ∈ field.2, Readable value := by
  simp [Property.fields]

theorem StateRef.readable_fields (s : StateRef) :
    ∀ field ∈ s.fields, ∀ value ∈ field.2, Readable value := by
  simp [StateRef.fields]

theorem Filter.readable_fields (f : Filter) :
    ∀ field ∈ f.fields, ∀ value ∈ field.2, Readable value := by
  simp [Filter.fields]

/-! ## Tokens -/

theorem Token.splitType_ofFields {fields : List (String × Option Json)}
    (h : "type" ∉ fields.map Prod.fst) (type : Json) :
    Token.splitType (ofFields (("type", some type) :: fields)) = .ok (type, ofFields fields) := by
  have hOther : ∀ member ∈ written fields, member.1 ≠ "type" := by
    intro member hm hName
    apply h
    rw [← hName]
    exact (keys_written_sublist fields).subset (List.mem_map_of_mem hm)
  have hTypes : ((written fields).filter fun member => member.1 = "type") = [] :=
    List.filter_eq_nil_iff.2 fun member hm => by simpa using hOther member hm
  have hRest : ((written fields).filter fun member => member.1 ≠ "type") = written fields :=
    List.filter_eq_self.2 fun member hm => by simpa using hOther member hm
  show Token.splitType (.object (("type", type) :: written fields)) = _
  rw [Token.splitType, List.filter_cons_of_pos (by simp), List.filter_cons_of_neg (by simp),
    hTypes, hRest]
  rfl

/-- A token is read from its type and its fields. -/
theorem Token.ofJson_typed {type : String} {fields : List (String × Option Json)} {token : Token}
    (hReadable : ∀ field ∈ fields, ∀ value ∈ field.2, Readable value)
    (hType : "type" ∉ fields.map Prod.fst)
    (hRead : Token.ofTyped type (ofFields fields) = .ok token) :
    Token.ofJson (ofFields (("type", some (.string type)) :: fields)) = .ok token := by
  have hAll : Readable (ofFields (("type", some (.string type)) :: fields)) :=
    .ofFields (by simpa using hReadable)
  rw [Token.ofJson, hAll, Token.splitType_ofFields hType]
  exact hRead

theorem readsBack_token : ReadsBack Token.toJson Token.ofJson := by
  intro token
  cases token with
  | property p =>
      apply Token.ofJson_typed p.readable_fields
      · show "type" ∉ Property.fieldNames
        decide
      · rw [Token.ofTyped, if_pos rfl, readsBack_property]
        rfl
  | state s =>
      apply Token.ofJson_typed s.readable_fields
      · show "type" ∉ StateRef.fieldNames
        decide
      · rw [Token.ofTyped, if_neg (by decide), if_pos rfl, readsBack_stateRef]
        rfl
  | filter f =>
      apply Token.ofJson_typed f.readable_fields
      · show "type" ∉ Filter.fieldNames
        decide
      · rw [Token.ofTyped, if_neg (by decide), if_neg (by decide), if_pos rfl, readsBack_filter]
        rfl

theorem readsBack_expression : ReadsBack Expression.toJson Expression.ofJson :=
  readsBack_token.list

end PagePress
