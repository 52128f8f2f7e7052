import PagePress.Proofs.Steps
import PagePress.Proofs.Trees
import PagePress.Publication.Host

/-!
# Bindings that are not shown

A hidden binding, or one without tokens, has no part in rendering. Every use that an element makes
of its bindings goes through the visible ones: its roles, its attributes, the states that it
publishes, and whether it has anything to do at all. So a binding that is not visible cannot stand
in for a visible one behind it either, and a tree may be cleared of such bindings. The only thing
that could tell the difference is a data source that looks at the component it answers for.

## Main results

* `renderComponent_rebind` — what rendering sees of the bindings of a component.
* `renderComponent_shown` — a component renders as the one with its visible bindings only.
* `renderTree_shown` — so does a tree, and one without visible bindings is its plain markup.
-/

namespace PagePress

open Markup

/-! ## Visible bindings only -/

/-- The element without the bindings that are hidden and without those that have no tokens. -/
def Element.shown (e : Element) : Element :=
  { e with
    privateStates := e.privateStates.filter fun state => !state.hidden && !state.expression.isEmpty
    publicStates := e.publicStates.filter fun state => !state.hidden && !state.expression.isEmpty }

theorem Element.privateStates_shown (e : Element) : e.shown.privateStates = e.visiblePrivate := rfl

theorem Element.publicStates_shown (e : Element) : e.shown.publicStates = e.visiblePublic := rfl

@[simp] theorem Element.visiblePrivate_shown (e : Element) :
    e.shown.visiblePrivate = e.visiblePrivate := by
  rw [visiblePrivate, privateStates_shown, visiblePrivate, List.filter_filter]
  simp only [Bool.and_self]

@[simp] theorem Element.visiblePublic_shown (e : Element) :
    e.shown.visiblePublic = e.visiblePublic := by
  rw [visiblePublic, publicStates_shown, visiblePublic, List.filter_filter]
  simp only [Bool.and_self]

/-- Whether an element has a visible binding or gives up its tag. -/
def Element.hasWork (e : Element) : Bool :=
  !e.shown.privateStates.isEmpty || !e.shown.publicStates.isEmpty || e.unwrap

theorem isDynamic_eq (e : Element) : isDynamic e = e.hasWork := rfl

/-- The element with other bindings. -/
def Element.rebind (e : Element) (privateStates publicStates : List StoredState) : Element :=
  { e with privateStates := privateStates, publicStates := publicStates }

namespace Component

mutual

/-- The tree with the visible bindings of all its components only. -/
def shown : Component → Component
  | node element children => node element.shown (shownAll children)

/-- The trees with their visible bindings only. -/
def shownAll : List Component → List Component
  | [] => []
  | tree :: trees => shown tree :: shownAll trees

end

end Component

/-- A result type that does not depend on the component an expression stands in. -/
def Block.IgnoresComponent (resultType : Block.ResultType) : Prop :=
  ∀ expression first second, resultType expression first = resultType expression second

theorem Site.host_ignoresComponent (site : Site) : Block.IgnoresComponent site.host.resultType :=
  fun _ _ _ => rfl

/-! ## Plain markup -/

namespace Markup

mutual

/-- The markup of a tree that has nothing for a template to do. -/
def plainTree : Component → String
  | .node element children => plainText element (element.content ++ plainTrees children)

/-- The markup of trees that have nothing for a template to do. -/
def plainTrees : List Component → String
  | [] => ""
  | tree :: trees => plainTree tree ++ plainTrees trees

end

/-! ## The parts of a component -/

/-- What a binding of an attribute comes to in a tag. -/
def attributeView (state : StoredState) : String × Expression :=
  (state.labelText, state.expression)

/-- Rendering finds the same bindings on two elements: in every role, for attributes in order, and
for published states. -/
structure SameView (first second : Element) : Prop where
  roles : ∀ role ∈ reservedLabels, boundTo? first role = boundTo? second role
  attributes : (attributeStates first).map attributeView =
    (attributeStates second).map attributeView
  shows : first.visiblePrivate.isEmpty = second.visiblePrivate.isEmpty
  published : first.visiblePublic = second.visiblePublic

theorem sameView_shown (element : Element) : SameView element.shown element where
  roles role _ := by rw [boundTo?, boundTo?, Element.visiblePrivate_shown]
  attributes := by rw [attributeStates, attributeStates, Element.visiblePrivate_shown]
  shows := by rw [Element.visiblePrivate_shown]
  published := Element.visiblePublic_shown element

variable {element : Element} {privateStates publicStates : List StoredState}

theorem isDynamic_rebind (h : SameView (element.rebind privateStates publicStates) element) :
    isDynamic (element.rebind privateStates publicStates) = isDynamic element := by
  rw [isDynamic, isDynamic, h.shows, h.published]
  rfl

theorem renderContent_rebind (h : SameView (element.rebind privateStates publicStates) element)
    (content : String) :
    renderContent (element.rebind privateStates publicStates) content =
      renderContent element content := by
  rw [renderContent, renderContent, h.roles "innerHTML" (by decide)]
  rfl

theorem renderCondition_rebind (h : SameView (element.rebind privateStates publicStates) element) :
    renderCondition (element.rebind privateStates publicStates) = renderCondition element := by
  have hCondition : condition? (element.rebind privateStates publicStates) =
      condition? element := by
    rw [condition?, condition?, h.roles "condition" (by decide), h.roles "condition2" (by decide)]
    rfl
  rw [renderCondition, renderCondition, hCondition]
  rfl

theorem mapM_renderAttribute (element : Element) (states : List StoredState) :
    states.mapM (renderAttribute element) = (states.map attributeView).mapM fun view => do
      return (⟨view.1, ← onExpression (Block.echo element view.2)⟩ : BoundAttribute) := by
  rw [List.mapM_map]
  rfl

theorem renderElement_rebind (h : SameView (element.rebind privateStates publicStates) element)
    (tag content : String) :
    renderElement (element.rebind privateStates publicStates) tag content =
      renderElement element tag content := by
  rw [renderElement, renderElement, mapM_renderAttribute, h.attributes, mapM_renderAttribute]
  rfl

variable {resultType : Block.ResultType} {children others : List Component}

theorem loop_rebind
    (hAnswers : ∀ expression, resultType expression
      (.node (element.rebind privateStates publicStates) others) =
        resultType expression (.node element children)) (expression : Expression) :
    Block.loop resultType (.node (element.rebind privateStates publicStates) others) expression =
      Block.loop resultType (.node element children) expression := by
  have hList : Block.requireList resultType
      (.node (element.rebind privateStates publicStates) others) expression =
        Block.requireList resultType (.node element children) expression := by
    rw [Block.requireList, Block.requireList, hAnswers]
  rw [Block.loop, Block.loop, hList]
  rfl

theorem renderLoop_rebind (h : SameView (element.rebind privateStates publicStates) element)
    (hAnswers : ∀ expression, resultType expression
      (.node (element.rebind privateStates publicStates) others) =
        resultType expression (.node element children)) :
    renderLoop resultType (.node (element.rebind privateStates publicStates) others) =
      renderLoop resultType (.node element children) := by
  have hBound : boundTo? (Component.node (element.rebind privateStates publicStates) others).element
      Block.loopState = boundTo? (Component.node element children).element Block.loopState :=
    h.roles Block.loopState (by decide)
  rw [renderLoop, renderLoop, hBound]
  cases boundTo? (Component.node element children).element Block.loopState with
  | none => rfl
  | some expression => exact congrArg onExpression (loop_rebind hAnswers expression)

/-! ## Components and trees -/

/-- A component around some content renders as it does with other bindings, and whatever children,
when rendering finds the same bindings and the data says the same of both. -/
theorem renderComponent_rebind (h : SameView (element.rebind privateStates publicStates) element)
    (hAnswers : ∀ expression, resultType expression
      (.node (element.rebind privateStates publicStates) others) =
        resultType expression (.node element children)) (content fallback : String) :
    renderComponent resultType (.node (element.rebind privateStates publicStates) others) content
        fallback =
      renderComponent resultType (.node element children) content fallback := by
  have hLoop := renderLoop_rebind h hAnswers
  simp only [renderComponent, Component.element, isDynamic_rebind h, renderContent_rebind h,
    renderCondition_rebind h, hLoop, h.published, renderElement_rebind h]
  rfl

/-- A component around some content renders as the one with its visible bindings only, whatever its
children are. -/
theorem renderComponent_shown (hIgnores : Block.IgnoresComponent resultType) (element : Element)
    (children others : List Component) (content fallback : String) :
    renderComponent resultType (.node element.shown others) content fallback =
      renderComponent resultType (.node element children) content fallback :=
  renderComponent_rebind (sameView_shown element) (fun expression => hIgnores expression _ _)
    content fallback

theorem renderTrees_shownAll {trees : List Component}
    (h : ∀ tree ∈ trees, renderTree resultType tree.shown = renderTree resultType tree) :
    renderTrees resultType (Component.shownAll trees) = renderTrees resultType trees := by
  induction trees with
  | nil => rfl
  | cons tree trees ih =>
      have hRest := ih fun other hm => h other (List.mem_cons_of_mem _ hm)
      rw [Component.shownAll, renderTrees, renderTrees, h tree List.mem_cons_self, hRest]

/-- Rendering a tree and rendering its visible bindings only are one step. -/
theorem renderTree_eq_shown (hIgnores : Block.IgnoresComponent resultType) (tree : Component) :
    renderTree resultType tree.shown = renderTree resultType tree := by
  induction tree using Component.induction with
  | hNode element children ih =>
      rw [Component.shown, renderTree, renderTree, renderTrees_shownAll ih]
      have hPlain : ∀ content, plainText element.shown content = plainText element content :=
        fun _ => rfl
      have hContent : element.shown.content = element.content := rfl
      simp only [renderComponent_shown hIgnores element children, hPlain, hContent]

theorem renderComponent_of_no_work {component : Component}
    (h : component.element.hasWork = false) (content fallback : String) :
    renderComponent resultType component content fallback = pure fallback := by
  simp [renderComponent, isDynamic_eq, h]

theorem renderTrees_plain {trees : List Component}
    (h : ∀ tree ∈ trees, renderTree resultType tree = pure (plainTree tree)) :
    renderTrees resultType trees = pure (plainTrees trees) := by
  induction trees with
  | nil => rw [renderTrees, plainTrees]
  | cons tree trees ih =>
      have hRest := ih fun other hm => h other (List.mem_cons_of_mem _ hm)
      rw [renderTrees, h tree List.mem_cons_self, hRest, plainTrees]
      rfl

/-- A tree that has nothing for a template to do renders to its plain markup, without effects. -/
theorem renderTree_plain (tree : Component)
    (hPlain : ∀ component ∈ tree.postorder, component.element.hasWork = false) :
    renderTree resultType tree = pure (plainTree tree) := by
  induction tree using Component.induction with
  | hNode element children ih =>
      have hElement := hPlain _ (Component.mem_postorder_self _)
      have hChildren : renderTrees resultType children = pure (plainTrees children) :=
        renderTrees_plain fun child hm =>
          ih child hm fun component hc => hPlain component (Component.postorder_subset hm hc)
      rw [renderTree, hChildren, plainTree, pure_bind]
      exact renderComponent_of_no_work hElement _ _

/-- Hidden and empty bindings have no effect: a tree renders to the same text or the same error as
the tree without them, and leaves the same context. A tree with no visible binding, of which no
component gives up its tag, always renders, to its plain markup, and takes no variable. -/
theorem renderTree_shown (hIgnores : Block.IgnoresComponent resultType) (tree : Component)
    (context : Context) :
    (renderTree resultType tree.shown).runIn context =
        (renderTree resultType tree).runIn context ∧
      ((∀ component ∈ tree.postorder, component.element.hasWork = false) →
        (renderTree resultType tree).runIn context = (.ok (plainTree tree), context)) := by
  refine ⟨by rw [renderTree_eq_shown hIgnores], fun hPlain => ?_⟩
  rw [renderTree_plain tree hPlain, Pass.runIn_pure]

/-- A link whose text is bound twice, hidden first, and that publishes nothing. -/
def veiledLink : Element where
  id := "link"
  tagName := some "a"
  privateStates :=
    [⟨"innerHTML", none, true, [.property ⟨"draft", "", none, [], .scalar, none⟩]⟩,
     ⟨"innerHTML", none, false, [.property ⟨"title", "", none, [], .scalar, none⟩]⟩,
     ⟨"href", none, false, []⟩]
  publicStates := [⟨"item", none, true, [.property ⟨"title", "", none, [], .scalar, none⟩]⟩]

/-- A paragraph that has a hidden condition only. -/
def veiledText : Element where
  tagName := some "p"
  content := "text"
  privateStates :=
    [⟨"condition", none, true, [.property ⟨"title", "", none, [], .scalar, none⟩]⟩]

theorem veiled_renders_shown :
    Block.IgnoresComponent (Site.host {}).resultType ∧
      (renderTree (Site.host {}).resultType
          (.node veiledLink [.leaf veiledText] : Component).shown).runIn (Context.start {} 0 []) =
        (renderTree (Site.host {}).resultType (.node veiledLink [.leaf veiledText])).runIn
          (Context.start {} 0 []) ∧
      (∀ component ∈ (Component.leaf veiledText).postorder, component.element.hasWork = false) ∧
      (renderTree (Site.host {}).resultType (.leaf veiledText)).runIn (Context.start {} 0 []) =
        (.ok "<p>text</p>", Context.start {} 0 []) := by
  have hIgnores := Site.host_ignoresComponent {}
  have hPlain : ∀ component ∈ (Component.leaf veiledText).postorder,
      component.element.hasWork = false := by
    decide
  have hText : plainTree (.leaf veiledText) = "<p>text</p>" := by decide +kernel
  obtain ⟨hShown, -⟩ := renderTree_shown hIgnores (.node veiledLink [.leaf veiledText])
    (Context.start {} 0 [])
  obtain ⟨-, hRun⟩ := renderTree_shown hIgnores (.leaf veiledText) (Context.start {} 0 [])
  exact ⟨hIgnores, hShown, hPlain, by rw [hRun hPlain, hText]⟩

end Markup

end PagePress
