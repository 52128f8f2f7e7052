import PagePress.Json.Printer

/-!
# Free values

Filter options, fixed values and plugin options may hold any JSON. Such a value is kept in a normal
form: every object lists its members by ascending name, of members with one name the last one wins,
and every part has a meaning.

## Main results

* `normalize_isNormal` — normalizing gives a normal form.
-/

namespace PagePress.Json

/-! ## The normal form -/

/-- Whether names ascend strictly. -/
def ascending : List String → Bool
  | [] => true
  | [_] => true
  | a :: b :: rest => a < b && ascending (b :: rest)

mutual

/-- Whether a tree is in normal form. -/
def isNormal : Json → Bool
  | .array items => itemsNormal items
  | .object members => ascending (members.map Prod.fst) && membersNormal members
  | .unreadable _ => false
  | _ => true

/-- Whether all items are in normal form. -/
def itemsNormal : List Json → Bool
  | [] => true
  | item :: items => isNormal item && itemsNormal items

/-- Whether the values of all members are in normal form. -/
def membersNormal : List (String × Json) → Bool
  | [] => true
  | (_, value) :: members => isNormal value && membersNormal members

end

/-! ## Normalizing -/

/-- Writes a member into members with ascending names. -/
def insertMember (name : String) (value : Json) : List (String × Json) → List (String × Json)
  | [] => [(name, value)]
  | (other, kept) :: rest =>
    if name < other then (name, value) :: (other, kept) :: rest
    else if name = other then (name, value) :: rest
    else (other, kept) :: insertMember name value rest

/-- The members by ascending name; of those with one name the last one wins. -/
def sortMembers (members : List (String × Json)) : List (String × Json) :=
  members.foldl (fun sorted member => insertMember member.1 member.2 sorted) []

mutual

/-- The normal form of a tree, or the error of a part without meaning. -/
def normalize : Json → Except Error Json
  | .null => .ok .null
  | .bool value => .ok (.bool value)
  | .number value => .ok (.number value)
  | .string text => .ok (.string text)
  | .array items => (normalizeItems items).map .array
  | .object members => (normalizeMembers members).map fun members => .object (sortMembers members)
  | .unreadable error => .error error

/-- The normal forms of items. -/
def normalizeItems : List Json → Except Error (List Json)
  | [] => .ok []
  | item :: items => do
    let item ← normalize item
    let items ← normalizeItems items
    return item :: items

/-- Members with their values in normal form. -/
def normalizeMembers : List (String × Json) → Except Error (List (String × Json))
  | [] => .ok []
  | (name, value) :: members => do
    let value ← normalize value
    let members ← normalizeMembers members
    return (name, value) :: members

end

/-! ## Laws of sorting -/

theorem ascending_cons {a : String} {names : List String} :
    ascending (a :: names) = true ↔
      (∀ b, names.head? = some b → a < b) ∧ ascending names = true := by
  cases names with
  | nil => simp [ascending]
  | cons b rest => simp [ascending]

theorem head?_insertMember (name : String) (value : Json) (members : List (String × Json)) :
    ((insertMember name value members).map Prod.fst).head? = some name ∨
      ((insertMember name value members).map Prod.fst).head? = (members.map Prod.fst).head? := by
  cases members with
  | nil => simp [insertMember]
  | cons member rest =>
    obtain ⟨other, kept⟩ := member
    simp only [insertMember]
    split
    · simp
    · split <;> simp

theorem ascending_insertMember {name : String} {value : Json} {members : List (String × Json)}
    (h : ascending (members.map Prod.fst) = true) :
    ascending ((insertMember name value members).map Prod.fst) = true := by
  induction members with
  | nil => simp [insertMember, ascending]
  | cons member rest ih =>
    obtain ⟨other, kept⟩ := member
    simp only [insertMember]
    split
    · rename_i hlt
      simp only [List.map_cons] at h ⊢
      simp [ascending, hlt, h]
    · rename_i hlt
      split
      · rename_i heq
        subst heq
        simpa using h
      · rename_i hne
        simp only [List.map_cons] at h ⊢
        rw [ascending_cons] at h ⊢
        refine ⟨?_, ih h.2⟩
        intro b hb
        have hother : other < name := by
          rcases Std.lt_trichotomy other name with h | h | h
          · exact h
          · exact absurd h.symm hne
          · exact absurd h hlt
        rcases head?_insertMember name value rest with hhead | hhead
        · rw [hhead] at hb
          cases hb
          exact hother
        · rw [hhead] at hb
          exact h.1 b hb

theorem ascending_sortMembers (members : List (String × Json)) :
    ascending ((sortMembers members).map Prod.fst) = true := by
  have general : ∀ (members sorted : List (String × Json)),
      ascending (sorted.map Prod.fst) = true →
      ascending ((members.foldl (fun sorted member => insertMember member.1 member.2 sorted)
        sorted).map Prod.fst) = true := by
    intro members
    induction members with
    | nil => exact fun _ h => h
    | cons member rest ih => exact fun sorted h => ih _ (ascending_insertMember h)
  exact general members [] rfl

theorem membersNormal_insertMember {name : String} {value : Json} {members : List (String × Json)}
    (hv : isNormal value = true) (h : membersNormal members = true) :
    membersNormal (insertMember name value members) = true := by
  induction members with
  | nil => simp [insertMember, membersNormal, hv]
  | cons member rest ih =>
    obtain ⟨other, kept⟩ := member
    simp only [membersNormal, Bool.and_eq_true] at h
    simp only [insertMember]
    split
    · simp [membersNormal, hv, h]
    · split
      · simp [membersNormal, hv, h]
      · simp [membersNormal, h, ih]

theorem membersNormal_sortMembers {members : List (String × Json)}
    (h : membersNormal members = true) : membersNormal (sortMembers members) = true := by
  have general : ∀ (members sorted : List (String × Json)),
      membersNormal members = true → membersNormal sorted = true →
      membersNormal (members.foldl (fun sorted member => insertMember member.1 member.2 sorted)
        sorted) = true := by
    intro members
    induction members with
    | nil => exact fun _ _ h => h
    | cons member rest ih =>
      intro sorted hm hs
      obtain ⟨name, value⟩ := member
      simp only [membersNormal, Bool.and_eq_true] at hm
      exact ih _ hm.2 (membersNormal_insertMember hm.1 hs)
  exact general members [] h rfl

mutual

theorem normalize_isNormal {json result : Json} (h : normalize json = .ok result) :
    isNormal result = true := by
  match json with
  | .null => cases h; rfl
  | .bool _ => cases h; rfl
  | .number _ => cases h; rfl
  | .string _ => cases h; rfl
  | .array items =>
    simp only [normalize] at h
    cases hi : normalizeItems items with
    | error e => rw [hi] at h; cases h
    | ok sorted => rw [hi] at h; cases h; simpa [isNormal] using normalizeItems_isNormal hi
  | .object members =>
    simp only [normalize] at h
    cases hm : normalizeMembers members with
    | error e => rw [hm] at h; cases h
    | ok sorted =>
      rw [hm] at h
      cases h
      simp [isNormal, ascending_sortMembers,
        membersNormal_sortMembers (normalizeMembers_isNormal hm)]
  | .unreadable _ => cases h

theorem normalizeItems_isNormal {items result : List Json} (h : normalizeItems items = .ok result) :
    itemsNormal result = true := by
  match items with
  | [] => cases h; rfl
  | item :: items =>
    simp only [normalizeItems, bind, Except.bind, pure, Except.pure] at h
    cases hi : normalize item with
    | error e => rw [hi] at h; cases h
    | ok first =>
      rw [hi] at h
      cases hr : normalizeItems items with
      | error e => simp only [hr] at h; cases h
      | ok rest =>
        simp only [hr] at h
        cases h
        simp [itemsNormal, normalize_isNormal hi, normalizeItems_isNormal hr]

theorem normalizeMembers_isNormal {members result : List (String × Json)}
    (h : normalizeMembers members = .ok result) : membersNormal result = true := by
  match members with
  | [] => cases h; rfl
  | (name, value) :: members =>
    simp only [normalizeMembers, bind, Except.bind, pure, Except.pure] at h
    cases hv : normalize value with
    | error e => rw [hv] at h; cases h
    | ok first =>
      rw [hv] at h
      cases hr : normalizeMembers members with
      | error e => simp only [hr] at h; cases h
      | ok rest =>
        simp only [hr] at h
        cases h
        simp [membersNormal, normalize_isNormal hv, normalizeMembers_isNormal hr]

end

/-! ## Values -/

/-- Any JSON, in normal form. -/
structure Value where
  json : Json
  normal : json.isNormal = true

/-- The value `null`. -/
def Value.null : Value := ⟨.null, rfl⟩

/-- A string. -/
def Value.string (text : String) : Value := ⟨.string text, rfl⟩

/-- The value of a tree. -/
def Value.ofJson (json : Json) : Except Error Value :=
  match h : normalize json with
  | .ok result => .ok ⟨result, normalize_isNormal h⟩
  | .error error => .error error

/-- The text of a value in generated source: a string is itself, `null` is nothing, and any other
value is its compact text. -/
def Value.text (value : Value) : String :=
  match value.json with
  | .string text => text
  | .null => ""
  | json => json.compact

end PagePress.Json
