import PagePress.Options

/-!
# Layers of options

Options are made of leaves: each folder and each address is one, and so is every other field as a
whole. A patch sets some of them. What options hold after patches is known leaf by leaf, and equal
leaves are equal options, so laws about patches are laws about the values that they set.

## Main results

* `Options.leaf_layer` — the leaves of options under a patch.
* `Options.ext_leaf` — options with equal leaves are equal.
* `layers_leaves` — the last patch that sets a leaf decides it.
-/

namespace PagePress

/-! ## Leaves -/

/-- The folders, by what they are for. -/
inductive Folders.Leaf where
  | input
  | project
  | html
  | css
  | assets

/-- The addresses, by what they are for. -/
inductive Addresses.Leaf where
  | css
  | assets

/-- The parts of options that are set on their own. -/
inductive Options.Leaf where
  | enabled
  | fetchPlugin
  | cacheBuster
  | folder (leaf : Folders.Leaf)
  | address (leaf : Addresses.Leaf)
  | globalSources
  | aliasPages

/-- What a leaf holds. The options of the fetch plugin may be missing, and that is a value too. -/
abbrev Options.Leaf.Value : Options.Leaf → Type
  | .enabled => Bool
  | .fetchPlugin => Option (OrderedMap Json.Value)
  | .cacheBuster => CacheBuster
  | .folder _ => String
  | .address _ => String
  | .globalSources => List String
  | .aliasPages => Bool

/-- The folder of a leaf. -/
def Folders.leaf (f : Folders) : Folders.Leaf → String
  | .input => f.input
  | .project => f.project
  | .html => f.html
  | .css => f.css
  | .assets => f.assets

/-- The address of a leaf. -/
def Addresses.leaf (a : Addresses) : Addresses.Leaf → String
  | .css => a.css
  | .assets => a.assets

/-- The value of a leaf. -/
def Options.leaf (o : Options) : (leaf : Options.Leaf) → leaf.Value
  | .enabled => o.enabled
  | .fetchPlugin => o.fetchPlugin
  | .cacheBuster => o.cacheBuster
  | .folder leaf => o.folders.leaf leaf
  | .address leaf => o.addresses.leaf leaf
  | .globalSources => o.globalSources
  | .aliasPages => o.aliasPages

/-- The folder that a patch sets for a leaf. -/
def FoldersPatch.leaf? (patch : FoldersPatch) : Folders.Leaf → Option String
  | .input => patch.input
  | .project => patch.project
  | .html => patch.html
  | .css => patch.css
  | .assets => patch.assets

/-- The address that a patch sets for a leaf. -/
def AddressesPatch.leaf? (patch : AddressesPatch) : Addresses.Leaf → Option String
  | .css => patch.css
  | .assets => patch.assets

/-- The value that a patch sets for a leaf. The options of the fetch plugin can be set, but a patch
cannot take them away. -/
def OptionsPatch.leaf? (patch : OptionsPatch) : (leaf : Options.Leaf) → Option leaf.Value
  | .enabled => patch.enabled
  | .fetchPlugin => patch.fetchPlugin.map some
  | .cacheBuster => patch.cacheBuster
  | .folder leaf => patch.folders.bind fun folders => folders.leaf? leaf
  | .address leaf => patch.addresses.bind fun addresses => addresses.leaf? leaf
  | .globalSources => patch.globalSources
  | .aliasPages => patch.aliasPages

/-! ## One patch -/

theorem Folders.leaf_layer (f : Folders) (patch : FoldersPatch) (leaf : Folders.Leaf) :
    (f.layer patch).leaf leaf = (patch.leaf? leaf).getD (f.leaf leaf) := by
  cases leaf <;> rfl

theorem Addresses.leaf_layer (a : Addresses) (patch : AddressesPatch) (leaf : Addresses.Leaf) :
    (a.layer patch).leaf leaf = (patch.leaf? leaf).getD (a.leaf leaf) := by
  cases leaf <;> rfl

/-- A patch without folders sets none of them. -/
theorem FoldersPatch.leaf?_getD (patch : Option FoldersPatch) (leaf : Folders.Leaf) :
    (patch.getD {}).leaf? leaf = patch.bind fun folders => folders.leaf? leaf := by
  cases patch with
  | none => cases leaf <;> rfl
  | some folders => rfl

/-- A patch without addresses sets none of them. -/
theorem AddressesPatch.leaf?_getD (patch : Option AddressesPatch) (leaf : Addresses.Leaf) :
    (patch.getD {}).leaf? leaf = patch.bind fun addresses => addresses.leaf? leaf := by
  cases patch with
  | none => cases leaf <;> rfl
  | some addresses => rfl

theorem Folders.ext_leaf {f other : Folders} (h : ∀ leaf, f.leaf leaf = other.leaf leaf) :
    f = other := by
  obtain ⟨input, project, html, css, assets⟩ := f
  obtain rfl : input = other.input := h .input
  obtain rfl : project = other.project := h .project
  obtain rfl : html = other.html := h .html
  obtain rfl : css = other.css := h .css
  obtain rfl : assets = other.assets := h .assets
  rfl

theorem Addresses.ext_leaf {a other : Addresses} (h : ∀ leaf, a.leaf leaf = other.leaf leaf) :
    a = other := by
  obtain ⟨css, assets⟩ := a
  obtain rfl : css = other.css := h .css
  obtain rfl : assets = other.assets := h .assets
  rfl

namespace Options

/-- A patch decides the leaves that it sets and no others. -/
theorem leaf_layer (o : Options) (patch : OptionsPatch) (leaf : Options.Leaf) :
    (o.layer patch).leaf leaf = (patch.leaf? leaf).getD (o.leaf leaf) := by
  cases leaf with
  | enabled => rfl
  | fetchPlugin =>
      show patch.fetchPlugin.or o.fetchPlugin = (patch.fetchPlugin.map some).getD o.fetchPlugin
      cases patch.fetchPlugin <;> rfl
  | cacheBuster => rfl
  | folder leaf =>
      show (o.folders.layer (patch.folders.getD {})).leaf leaf = _
      rw [Folders.leaf_layer, FoldersPatch.leaf?_getD]
      rfl
  | address leaf =>
      show (o.addresses.layer (patch.addresses.getD {})).leaf leaf = _
      rw [Addresses.leaf_layer, AddressesPatch.leaf?_getD]
      rfl
  | globalSources => rfl
  | aliasPages => rfl

/-- Options with equal leaves are equal. -/
theorem ext_leaf {o other : Options} (h : ∀ leaf, o.leaf leaf = other.leaf leaf) : o = other := by
  obtain ⟨enabled, fetchPlugin, cacheBuster, folders, addresses, globalSources, aliasPages⟩ := o
  obtain rfl : enabled = other.enabled := h .enabled
  obtain rfl : fetchPlugin = other.fetchPlugin := h .fetchPlugin
  obtain rfl : cacheBuster = other.cacheBuster := h .cacheBuster
  obtain rfl : folders = other.folders := Folders.ext_leaf fun leaf => h (.folder leaf)
  obtain rfl : addresses = other.addresses := Addresses.ext_leaf fun leaf => h (.address leaf)
  obtain rfl : globalSources = other.globalSources := h .globalSources
  obtain rfl : aliasPages = other.aliasPages := h .aliasPages
  rfl

/-! ## Patches in order -/

/-- After patches in order a leaf has the last value that one of them sets. -/
theorem leaf_foldl_layer (patches : List OptionsPatch) (o : Options) (leaf : Options.Leaf) :
    (patches.foldl layer o).leaf leaf =
      (patches.filterMap fun patch => patch.leaf? leaf).getLast?.getD (o.leaf leaf) := by
  induction patches generalizing o with
  | nil => rfl
  | cons patch rest ih =>
      rw [List.foldl_cons, ih, leaf_layer, List.filterMap_cons]
      cases patch.leaf? leaf with
      | none => rfl
      | some value => rw [List.getLast?_cons, Option.getD_some, Option.getD_some]

end Options

/-! ## Patches put together -/

/-- A patch of folders, and where it sets none another one. -/
def FoldersPatch.above (patch below : FoldersPatch) : FoldersPatch where
  input := patch.input.or below.input
  project := patch.project.or below.project
  html := patch.html.or below.html
  css := patch.css.or below.css
  assets := patch.assets.or below.assets

/-- A patch of addresses, and where it sets none another one. -/
def AddressesPatch.above (patch below : AddressesPatch) : AddressesPatch where
  css := patch.css.or below.css
  assets := patch.assets.or below.assets

/-- A patch, and where it sets nothing another one. Folders and addresses are put together one by
one when both patches have some. -/
def OptionsPatch.above (patch below : OptionsPatch) : OptionsPatch where
  enabled := patch.enabled.or below.enabled
  fetchPlugin := patch.fetchPlugin.or below.fetchPlugin
  cacheBuster := patch.cacheBuster.or below.cacheBuster
  folders := Option.merge FoldersPatch.above patch.folders below.folders
  addresses := Option.merge AddressesPatch.above patch.addresses below.addresses
  globalSources := patch.globalSources.or below.globalSources
  aliasPages := patch.aliasPages.or below.aliasPages

theorem FoldersPatch.leaf?_above (patch below : FoldersPatch) (leaf : Folders.Leaf) :
    (patch.above below).leaf? leaf = (patch.leaf? leaf).or (below.leaf? leaf) := by
  cases leaf <;> rfl

theorem AddressesPatch.leaf?_above (patch below : AddressesPatch) (leaf : Addresses.Leaf) :
    (patch.above below).leaf? leaf = (patch.leaf? leaf).or (below.leaf? leaf) := by
  cases leaf <;> rfl

/-- What both of two groups of leaves may set, when either group may be missing. -/
theorem bind_merge {α β : Type} {join : α → α → α} {read : α → Option β}
    (h : ∀ patch below, read (join patch below) = (read patch).or (read below))
    (patch below : Option α) :
    (Option.merge join patch below).bind read = (patch.bind read).or (below.bind read) := by
  cases patch with
  | none => cases below <;> rfl
  | some patch =>
      cases below with
      | none => exact Option.or_none.symm
      | some below => exact h patch below

/-- Two patches put together set what the upper one sets, and what else the lower one sets. -/
theorem OptionsPatch.leaf?_above (patch below : OptionsPatch) (leaf : Options.Leaf) :
    (patch.above below).leaf? leaf = (patch.leaf? leaf).or (below.leaf? leaf) := by
  cases leaf with
  | enabled => rfl
  | fetchPlugin =>
      show (patch.fetchPlugin.or below.fetchPlugin).map some =
        (patch.fetchPlugin.map some).or (below.fetchPlugin.map some)
      exact Option.map_or
  | cacheBuster => rfl
  | folder leaf =>
      exact bind_merge (fun patch below => FoldersPatch.leaf?_above patch below leaf) _ _
  | address leaf =>
      exact bind_merge (fun patch below => AddressesPatch.leaf?_above patch below leaf) _ _
  | globalSources => rfl
  | aliasPages => rfl

/-- After patches in order every leaf has the value of the last patch that sets it, or its own when
none does. So a patch changes nothing the second time, and two patches in order do what one patch
does that sets each leaf as the second of them, and where that one does not as the first. -/
theorem layers_leaves (o : Options) :
    (∀ (patches : List OptionsPatch) (leaf : Options.Leaf),
        (patches.foldl Options.layer o).leaf leaf =
          (patches.filterMap fun patch => patch.leaf? leaf).getLast?.getD (o.leaf leaf)) ∧
      (∀ patch, (o.layer patch).layer patch = o.layer patch) ∧
      ∀ first second : OptionsPatch, (o.layer first).layer second = o.layer (second.above first) ∧
        ∀ leaf, (second.above first).leaf? leaf = (second.leaf? leaf).or (first.leaf? leaf) := by
  refine ⟨fun patches leaf => Options.leaf_foldl_layer patches o leaf, fun patch => ?_,
    fun first second => ⟨?_, OptionsPatch.leaf?_above second first⟩⟩
  · refine Options.ext_leaf fun leaf => ?_
    rw [Options.leaf_layer, Options.leaf_layer]
    cases patch.leaf? leaf <;> rfl
  · refine Options.ext_leaf fun leaf => ?_
    rw [Options.leaf_layer, Options.leaf_layer, Options.leaf_layer, OptionsPatch.leaf?_above]
    cases second.leaf? leaf <;> rfl

end PagePress
