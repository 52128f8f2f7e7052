import Mathlib.Data.List.Chain
import PagePress.Proofs.Stored.Records

/-!
# Free values are read back

A free value is a tree in normal form, and reading it normalizes the tree once more. That changes
nothing: names that ascend are sorted already, and no part is without meaning. The second fact is
also what a token asks of all its parts before it is read.

## Main results

* `sortMembers_of_ascending`, `normalize_of_isNormal` — a normal form is its own normal form.
* `readsBack_value` — every free value is read back.
* `Readable.ofNormal`, `Readable.ofFields` — trees that tokens may be read from.
-/

namespace PagePress

namespace Json

/-! ## Sorting what is sorted -/

theorem pairwise_of_ascending {names : List String} (h : ascending names = true) :
    names.Pairwise (· < ·) := by
  apply List.isChain_iff_pairwise.1
  induction names with
  | nil => exact .nil
  | cons name names ih =>
      obtain ⟨hHead, hRest⟩ := ascending_cons.1 h
      exact List.isChain_cons.2 ⟨fun other hOther => hHead other hOther, ih hRest⟩

/-- A name after all others goes to the end. -/
theorem insertMember_of_forall_lt {name : String} {members : List (String × Json)}
    (h : ∀ member ∈ members, member.1 < name) (value : Json) :
    insertMember name value members = members ++ [(name, value)] := by
  induction members with
  | nil => rfl
  | cons member members ih =>
      have hLess := h member List.mem_cons_self
      rw [insertMember, if_neg (String.lt_asymm hLess), if_neg (Std.ne_of_lt hLess).symm,
        ih fun other hm => h other (List.mem_cons_of_mem _ hm)]
      rfl

theorem sortMembers_of_ascending {members : List (String × Json)}
    (h : ascending (members.map Prod.fst) = true) : sortMembers members = members := by
  have general : ∀ rest sorted : List (String × Json),
      ((sorted ++ rest).map Prod.fst).Pairwise (· < ·) →
      rest.foldl (fun sorted member => insertMember member.1 member.2 sorted) sorted =
        sorted ++ rest := by
    intro rest
    induction rest with
    | nil => exact fun sorted _ => (List.append_nil sorted).symm
    | cons member rest ih =>
        intro sorted hPairwise
        have hLess : ∀ other ∈ sorted, other.1 < member.1 := by
          rw [List.map_append, List.pairwise_append] at hPairwise
          intro other hm
          exact hPairwise.2.2 other.1 (List.mem_map_of_mem hm) member.1 List.mem_cons_self
        rw [List.foldl_cons, insertMember_of_forall_lt hLess, List.append_cons sorted member rest]
        apply ih
        rwa [← List.append_cons]
  exact general members [] (pairwise_of_ascending h)

/-! ## Normal forms -/

mutual

theorem normalize_of_isNormal {json : Json} (h : isNormal json = true) :
    normalize json = .ok json := by
  match json with
  | .null | .bool _ | .number _ | .string _ => rfl
  | .array items =>
      rw [normalize, normalizeItems_of_itemsNormal h]
      rfl
  | .object members =>
      obtain ⟨hAscending, hValues⟩ := Bool.and_eq_true_iff.1 h
      rw [normalize, normalizeMembers_of_membersNormal hValues, Except.map,
        sortMembers_of_ascending hAscending]
  | .unreadable _ => cases h

theorem normalizeItems_of_itemsNormal {items : List Json} (h : itemsNormal items = true) :
    normalizeItems items = .ok items := by
  match items with
  | [] => rfl
  | item :: items =>
      obtain ⟨hItem, hItems⟩ := Bool.and_eq_true_iff.1 h
      rw [normalizeItems, normalize_of_isNormal hItem, normalizeItems_of_itemsNormal hItems]
      rfl

theorem normalizeMembers_of_membersNormal {members : List (String × Json)}
    (h : membersNormal members = true) : normalizeMembers members = .ok members := by
  match members with
  | [] => rfl
  | (name, value) :: members =>
      obtain ⟨hValue, hMembers⟩ := Bool.and_eq_true_iff.1 h
      rw [normalizeMembers, normalize_of_isNormal hValue,
        normalizeMembers_of_membersNormal hMembers]
      rfl

end

theorem readsBack_value : ReadsBack Value.json Value.ofJson := by
  intro value
  have hNormal := normalize_of_isNormal value.normal
  rw [Value.ofJson]
  split
  · rename_i result hResult
    obtain rfl : value.json = result := Except.ok.inj (hNormal.symm.trans hResult)
    rfl
  · rename_i hError
    rw [hNormal] at hError
    cases hError

/-! ## Trees with a meaning -/

/-- Every part of a tree has a meaning. -/
def Readable (json : Json) : Prop := json.checkReadable = .ok ()

theorem checkItems_of_forall {items : List Json} (h : ∀ item ∈ items, Readable item) :
    checkItems items = .ok () := by
  induction items with
  | nil => rfl
  | cons item items ih =>
      rw [checkItems, h item List.mem_cons_self]
      exact ih fun other hm => h other (List.mem_cons_of_mem _ hm)

theorem checkMembers_of_forall {members : List (String × Json)}
    (h : ∀ member ∈ members, Readable member.2) : checkMembers members = .ok () := by
  induction members with
  | nil => rfl
  | cons member members ih =>
      rw [checkMembers, h member List.mem_cons_self]
      exact ih fun other hm => h other (List.mem_cons_of_mem _ hm)

theorem Readable.ofList {α : Type} {write : α → Json} (h : ∀ item, Readable (write item))
    (items : List α) : Readable (Json.ofList write items) := by
  apply checkItems_of_forall
  intro json hm
  obtain ⟨item, -, rfl⟩ := List.mem_map.1 hm
  exact h item

theorem Readable.ofMap {α : Type} {write : α → Json} (h : ∀ value, Readable (write value))
    (m : OrderedMap α) : Readable (Json.ofMap write m) := by
  apply checkMembers_of_forall
  intro member hm
  obtain ⟨entry, -, rfl⟩ := List.mem_map.1 hm
  exact h entry.2

/-- A record has a meaning when the fields that are there have one. -/
theorem Readable.ofFields {fields : List (String × Option Json)}
    (h : ∀ field ∈ fields, ∀ value ∈ field.2, Readable value) :
    Readable (Json.ofFields fields) := by
  apply checkMembers_of_forall
  intro member hm
  obtain ⟨field, hField, hValue⟩ := List.mem_filterMap.1 hm
  obtain ⟨value, hThere, rfl⟩ := Option.map_eq_some_iff.1 hValue
  exact h field hField value hThere

mutual

theorem Readable.ofNormal {json : Json} (h : isNormal json = true) : Readable json := by
  match json with
  | .null | .bool _ | .number _ | .string _ => rfl
  | .array items => exact checkItems_of_itemsNormal h
  | .object members => exact checkMembers_of_membersNormal (Bool.and_eq_true_iff.1 h).2
  | .unreadable _ => cases h

theorem checkItems_of_itemsNormal {items : List Json} (h : itemsNormal items = true) :
    checkItems items = .ok () := by
  match items with
  | [] => rfl
  | item :: items =>
      obtain ⟨hItem, hItems⟩ := Bool.and_eq_true_iff.1 h
      rw [checkItems, Readable.ofNormal hItem]
      exact checkItems_of_itemsNormal hItems

theorem checkMembers_of_membersNormal {members : List (String × Json)}
    (h : membersNormal members = true) : checkMembers members = .ok () := by
  match members with
  | [] => rfl
  | (_, value) :: members =>
      obtain ⟨hValue, hMembers⟩ := Bool.and_eq_true_iff.1 h
      rw [checkMembers, Readable.ofNormal hValue]
      exact checkMembers_of_membersNormal hMembers

end

end Json

end PagePress
