import PagePress.Markup.Rendering

/-!
# Trees in the order of rendering

A tree renders its children before its root, and siblings in order. Statements about whole trees
are about the list of its components in this order, and are proved by induction on the tree: from
all children of a node to the node.

## Main results

* `Component.induction` — what passes from the children to their parent holds of every tree.
* `mem_postorder_self` — a tree is the last of its own components.
-/

namespace PagePress

namespace Component

mutual

/-- The components of a tree, children before parents and siblings in order. -/
def postorder : Component → List Component
  | node element children => postorderAll children ++ [node element children]

/-- The components of trees, one tree after the other. -/
def postorderAll : List Component → List Component
  | [] => []
  | tree :: trees => postorder tree ++ postorderAll trees

end

theorem mem_postorder_self (tree : Component) : tree ∈ tree.postorder := by
  cases tree with
  | node element children => simp [postorder]

/-- The components of a child are components of its parent. -/
theorem postorder_subset {element : Element} {child : Component} {children : List Component}
    (h : child ∈ children) : child.postorder ⊆ (node element children).postorder := by
  have hAll : child.postorder ⊆ postorderAll children := by
    induction children with
    | nil => cases h
    | cons first rest ih =>
        rw [postorderAll]
        rcases List.mem_cons.1 h with rfl | h
        · exact List.subset_append_left _ _
        · exact List.subset_append_of_subset_right _ (ih h)
  rw [postorder]
  exact List.subset_append_of_subset_left _ hAll

/-- What holds of a node when it holds of its children holds of every tree. -/
theorem induction {motive : Component → Prop}
    (hNode : ∀ element children, (∀ child ∈ children, motive child) →
      motive (node element children)) (tree : Component) : motive tree := by
  cases tree with
  | node element children => exact hNode element children fun child _ => induction hNode child
termination_by tree
decreasing_by
  have hSmaller := List.sizeOf_lt_of_mem ‹child ∈ children›
  simp only [node.sizeOf_spec]
  omega

end Component

end PagePress
