import PagePress.Proofs.Visibility

/-!
# Roles of bindings

A visible private state whose label is reserved is about its element and not about an attribute. The
label does not say more than that: the role that such a state has is looked up by its id. So a state
that is labelled with a role has it only when that is its id too, and one that goes by the id of a
role that no other state has before it takes that role, whichever reserved label it has. A state
whose id is no role at all is neither for an attribute nor for the element, and shows nowhere.

## Main results

* `roleHolder?_eq_some_iff` — when the first state with the label of a role has that role.
* `boundTo?_withId_iff` — which roles feel that a state goes by another id.
* `renderComponent_withId` — rendering does not change when no role does.
-/

namespace PagePress

/-- The binding under another id. -/
def StoredState.withId (s : StoredState) (id : String) : StoredState := { s with id := id }

@[simp] theorem StoredState.expression_withId (s : StoredState) (id : String) :
    (s.withId id).expression = s.expression := rfl

@[simp] theorem StoredState.isVisible_withId (s : StoredState) (id : String) :
    (s.withId id).isVisible = s.isVisible := rfl

theorem StoredState.labelText_of_label {s : StoredState} {label : String}
    (hLabel : s.label = some label) (hText : label ≠ "") : s.labelText = label := by
  simp [StoredState.labelText, hLabel, hText]

namespace Markup

variable {element : Element} {before after : List StoredState} {state : StoredState}
  {role label id : String}

/-! ## Holders of roles -/

/-- Whether a binding is about its element and goes by the id of a role. -/
def isHolder (role : String) (state : StoredState) : Bool :=
  !isAttributeLabel state.labelText && state.id = role

/-- The binding among some that has a role. -/
def holderIn? (role : String) (states : List StoredState) : Option StoredState :=
  (states.filter StoredState.isVisible).find? (isHolder role)

/-- The binding of an element that has a role. -/
def roleHolder? (element : Element) (role : String) : Option StoredState :=
  holderIn? role element.privateStates

theorem boundTo?_eq (element : Element) (role : String) :
    boundTo? element role = (roleHolder? element role).map StoredState.expression := rfl

theorem holderIn?_append (role : String) (before after : List StoredState) :
    holderIn? role (before ++ after) = (holderIn? role before).or (holderIn? role after) := by
  rw [holderIn?, List.filter_append, List.find?_append]
  rfl

theorem holderIn?_cons (hVisible : state.isVisible = true) (role : String)
    (after : List StoredState) : holderIn? role (state :: after) =
      if isHolder role state then some state else holderIn? role after := by
  rw [holderIn?, List.filter_cons_of_pos hVisible, List.find?_cons, holderIn?]
  cases isHolder role state <;> rfl

theorem holderIn?_eq_none_iff : holderIn? role before = none ↔
    ∀ earlier ∈ before, earlier.isVisible = true → isHolder role earlier = false := by
  simp [holderIn?, List.find?_eq_none]

theorem isHolder_of_holderIn? (h : holderIn? role before = some state) :
    state ∈ before ∧ state.isVisible = true ∧ isHolder role state = true := by
  obtain ⟨hMem, hVisible⟩ := List.mem_filter.1 (List.mem_of_find?_eq_some h)
  exact ⟨hMem, hVisible, List.find?_some h⟩

/-- The first visible binding with some reserved label has a role when that is its id, and no
binding before it is about the element and has that id. -/
theorem roleHolder?_eq_some_iff (hStates : element.privateStates = before ++ state :: after)
    (hVisible : state.isVisible = true) (hReserved : isAttributeLabel state.labelText = false)
    (hFirst : ∀ earlier ∈ before, earlier.isVisible = true →
      earlier.labelText ≠ state.labelText) :
    roleHolder? element role = some state ↔ state.id = role ∧
      ∀ earlier ∈ before, earlier.isVisible = true → isHolder role earlier = false := by
  have hSelf : isHolder role state = true ↔ state.id = role := by simp [isHolder, hReserved]
  rw [roleHolder?, hStates, holderIn?_append, holderIn?_cons hVisible, ← holderIn?_eq_none_iff,
    ← hSelf]
  cases hBefore : holderIn? role before with
  | some holder =>
      obtain ⟨hMem, hShown, -⟩ := isHolder_of_holderIn? hBefore
      have hNe : holder ≠ state := fun hSame => hFirst holder hMem hShown (by rw [hSame])
      simp [hNe]
  | none =>
      rw [Option.none_or, and_iff_left rfl]
      by_cases hHolder : isHolder role state = true
      · rw [if_pos hHolder]
        exact iff_of_true rfl hHolder
      · rw [if_neg hHolder]
        exact iff_of_false (fun hLater => hHolder (isHolder_of_holderIn? hLater).2.2) hHolder

/-! ## Another id -/

/-- No role feels that a binding goes by another id: its label is that of an attribute, or the id is
the same, or each role that it leaves or comes to is taken before it or has the same expression
behind it. -/
def KeepsRoles (before : List StoredState) (state : StoredState) (after : List StoredState)
    (id : String) : Prop :=
  isAttributeLabel state.labelText = true ∨ state.id = id ∨
    ∀ role ∈ reservedLabels, role = state.id ∨ role = id → holderIn? role before ≠ none ∨
      (holderIn? role after).map StoredState.expression = some state.expression

/-- The element with one of its private states under another id. -/
def renamed (element : Element) (before : List StoredState) (state : StoredState)
    (after : List StoredState) (id : String) : Element :=
  element.rebind (before ++ state.withId id :: after) element.publicStates

theorem labelText_withId (hLabel : state.label = some label) (hText : label ≠ "") (id : String) :
    (state.withId id).labelText = state.labelText := by
  rw [StoredState.labelText_of_label hLabel hText]
  exact StoredState.labelText_of_label hLabel hText

/-- One role does not feel that a binding goes by another id in just these cases. -/
theorem boundTo?_withId_iff (hStates : element.privateStates = before ++ state :: after)
    (hVisible : state.isVisible = true)
    (hLabel : (state.withId id).labelText = state.labelText) :
    boundTo? (renamed element before state after id) role = boundTo? element role ↔
      isAttributeLabel state.labelText = true ∨ state.id = id ∨
        (role = state.id ∨ role = id → holderIn? role before ≠ none ∨
          (holderIn? role after).map StoredState.expression = some state.expression) := by
  have hShown : (state.withId id).isVisible = true := hVisible
  have hSelf : isHolder role state =
      (!isAttributeLabel state.labelText && decide (state.id = role)) := rfl
  have hRenamed : isHolder role (state.withId id) =
      (!isAttributeLabel state.labelText && decide (id = role)) := by
    rw [isHolder, hLabel]
    rfl
  rw [boundTo?_eq, boundTo?_eq, roleHolder?, roleHolder?, hStates, renamed, Element.rebind]
  simp only [holderIn?_append, holderIn?_cons hVisible, holderIn?_cons hShown, hSelf, hRenamed]
  cases holderIn? role before with
  | some holder => simp
  | none =>
      cases isAttributeLabel state.labelText with
      | true => simp
      | false =>
          simp only [Option.none_or, Bool.not_false, Bool.true_and, decide_eq_true_eq, ne_eq,
            not_true_eq_false, false_or, Bool.false_eq_true]
          by_cases hOld : state.id = role <;> by_cases hNew : id = role <;>
            simp only [hOld, hNew, if_true, if_false, Option.map_some]
          · simp
          · simp [Ne.symm hNew]
          · rw [eq_comm]
            simp [Ne.symm hOld]
          · simp [Ne.symm hOld, Ne.symm hNew]

theorem forall_boundTo?_withId_iff (hStates : element.privateStates = before ++ state :: after)
    (hVisible : state.isVisible = true)
    (hLabel : (state.withId id).labelText = state.labelText) :
    (∀ role ∈ reservedLabels,
        boundTo? (renamed element before state after id) role = boundTo? element role) ↔
      KeepsRoles before state after id := by
  simp only [boundTo?_withId_iff hStates hVisible hLabel]
  constructor
  · intro h
    by_cases hAttribute : isAttributeLabel state.labelText = true
    · exact .inl hAttribute
    · by_cases hSame : state.id = id
      · exact .inr (.inl hSame)
      · refine .inr (.inr fun role hRole => ?_)
        exact ((h role hRole).resolve_left hAttribute).resolve_left hSame
  · rintro (hAttribute | hSame | hRoles) role hRole
    · exact .inl hAttribute
    · exact .inr (.inl hSame)
    · exact .inr (.inr (hRoles role hRole))

/-- Rendering finds the same bindings when roles do not feel the other id: an attribute goes by the
label alone. -/
theorem sameView_renamed (hStates : element.privateStates = before ++ state :: after)
    (hVisible : state.isVisible = true)
    (hLabel : (state.withId id).labelText = state.labelText)
    (hKeeps : KeepsRoles before state after id) :
    SameView (renamed element before state after id) element where
  roles := (forall_boundTo?_withId_iff hStates hVisible hLabel).2 hKeeps
  attributes := by
    have hView : attributeView (state.withId id) = attributeView state := by
      rw [attributeView, hLabel]
      rfl
    simp only [attributeStates, Element.visiblePrivate, hStates, renamed, Element.rebind,
      List.filter_append, List.map_append, List.filter_cons, StoredState.isVisible_withId, hVisible,
      if_true, hLabel]
    split
    · rw [List.map_cons, List.map_cons, hView]
    · rfl
  shows := by
    simp only [Element.visiblePrivate, hStates, renamed, Element.rebind, List.filter_append,
      List.filter_cons, StoredState.isVisible_withId, hVisible, if_true]
    cases before.filter StoredState.isVisible <;> rfl
  published := rfl

/-- The first visible binding that is labelled with a role has that role exactly when the role is
its id too, and no visible binding before it that is about the element has that id. A binding with a
label goes by another id without any role changing in exactly the cases of `KeepsRoles`, and in
these its component renders as before, in every context and to the same error if to any, unless the
data tells the two components apart. -/
theorem renderComponent_withId (hStates : element.privateStates = before ++ state :: after)
    (hVisible : state.isVisible = true) (hLabel : state.label = some label) (hText : label ≠ "") :
    (label ∈ reservedLabels →
        (∀ earlier ∈ before, earlier.isVisible = true → earlier.labelText ≠ label) →
        (roleHolder? element label = some state ↔ state.id = label ∧
          ∀ earlier ∈ before, earlier.isVisible = true → isHolder label earlier = false)) ∧
      ∀ id, ((∀ role ∈ reservedLabels,
          boundTo? (renamed element before state after id) role = boundTo? element role) ↔
            KeepsRoles before state after id) ∧
        (KeepsRoles before state after id → ∀ resultType children content fallback context,
          (∀ expression, resultType expression
              (.node (renamed element before state after id) children) =
            resultType expression (.node element children)) →
          (renderComponent resultType (.node (renamed element before state after id) children)
              content fallback).runIn context =
            (renderComponent resultType (.node element children) content fallback).runIn
              context) := by
  have hSelf := StoredState.labelText_of_label hLabel hText
  refine ⟨fun hReserved hFirst => ?_, fun id => ?_⟩
  · refine roleHolder?_eq_some_iff hStates hVisible ?_ (by rwa [hSelf])
    simpa [isAttributeLabel, hSelf] using hReserved
  · have hSame := labelText_withId hLabel hText id
    refine ⟨forall_boundTo?_withId_iff hStates hVisible hSame, fun hKeeps => ?_⟩
    intro resultType children content fallback context hAnswers
    have hView := sameView_renamed hStates hVisible hSame hKeeps
    rw [renamed] at hView hAnswers ⊢
    rw [renderComponent_rebind hView hAnswers]

/-- A text that is labelled as content and goes by an id that is no role. -/
def captionText : StoredState :=
  ⟨"x", some "innerHTML", false, [.property ⟨"title", "", none, [], .scalar, none⟩]⟩

/-- A test that goes by the id of the content, and so is what is shown. -/
def captionTest : StoredState :=
  ⟨"innerHTML", some "condition", false, [.property ⟨"shown", "", none, [], .scalar, none⟩]⟩

/-- A caption with its test before its text. -/
def caption : Element where
  id := "c1"
  tagName := some "div"
  privateStates := [captionTest, captionText]

theorem caption_withId :
    roleHolder? caption "innerHTML" ≠ some captionText ∧
      KeepsRoles [captionTest] captionText [] "innerHTML" ∧
      (renderComponent (fun _ _ => none)
          (.leaf (renamed caption [captionTest] captionText [] "innerHTML")) "text" "").runIn
          (Context.start {} 0 []) =
        (renderComponent (fun _ _ => none) (.leaf caption) "text" "").runIn
          (Context.start {} 0 []) := by
  obtain ⟨hRole, hId⟩ := renderComponent_withId
    (show caption.privateStates = [captionTest] ++ captionText :: [] from rfl) rfl
    (show captionText.label = some "innerHTML" from rfl) (by decide)
  obtain ⟨-, hRender⟩ := hId "innerHTML"
  have hKeeps : KeepsRoles [captionTest] captionText [] "innerHTML" := by
    refine .inr (.inr fun role hReserved hMoved => .inl ?_)
    rcases hMoved with rfl | rfl
    · exact absurd hReserved (by decide)
    · rw [holderIn?_cons rfl, if_pos (by decide)]
      exact Option.some_ne_none _
  refine ⟨?_, hKeeps, hRender hKeeps _ [] _ _ _ fun _ => rfl⟩
  intro hHolder
  have hIds := (hRole (by decide) (by decide)).1 hHolder
  exact absurd hIds.1 (by decide)

/-- A box with a text that is bound to its content by the label, under some id. -/
def labelledBox (id : String) : Element where
  id := "c1"
  tagName := some "div"
  privateStates := [captionText.withId id]

/-- The label does not give the role: under another id the text is lost, without an error. -/
theorem renderComponent_loses_labelled :
    captionText.isVisible = true ∧ captionText.label = some "innerHTML" ∧
      ((renderComponent (fun _ _ => none) (.leaf (labelledBox "innerHTML")) "static" "").runIn
          (Context.start {} 0 [])).1.toOption =
        some "<div>\x7b% liquid\n  assign var_c1_0 = title\n  echo var_c1_0\n%\x7d</div>" ∧
      ((renderComponent (fun _ _ => none) (.leaf (labelledBox "x")) "static" "").runIn
          (Context.start {} 0 [])).1.toOption = some "<div>static</div>" := by
  refine ⟨by decide, rfl, ?_, ?_⟩ <;> decide +kernel

end Markup

end PagePress
