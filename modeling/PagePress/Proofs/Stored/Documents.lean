import Mathlib
import PagePress.DataSource
import PagePress.Options
import PagePress.Page.Basic
import PagePress.Proofs.Stored.Expressions
import PagePress.Proofs.Trees

/-!
# Stored documents are read back

Pages, their settings and components, data sources and options are written as records. A field that
is absent is left out in some of them and written as `null` in others, form fields are read by rules
of their own, a kind of data source that is not known is written by a name that is not known either,
and options are read as a patch over the defaults. None of this loses anything: what was written is
read back, and a document that was read once is written the same way ever after.

## Main results

* `Component.ofJson_toJson` — components, by induction on the tree.
* `readsBack_settings`, `readsBack_page`, `readsBack_source` — the other records.
* `Options.layer_asPatch`, `readsBack_options` — options, read as a patch over the defaults.
* `documents_survive` — what is stored is read back, and reading and writing settles at once.
-/

namespace PagePress

open Json

/-! ## States and elements -/

theorem Operator.named?_name (operator : Operator) :
    Operator.named? operator.name = some operator := by
  cases operator <;> decide

@[simp] theorem readsBack_operator (operator : Option Operator) :
    asOption Operator.ofJson (ofOption Operator.toJson operator) = .ok operator :=
  ReadsBack.option (readsBack_choice Operator.named?_name) (fun _ => nofun) operator

@[simp] theorem readsBack_attributes (attributes : OrderedMap AttributeValue) :
    asMap AttributeValue.ofJson (ofMap AttributeValue.toJson attributes) = .ok attributes := by
  have hValue : ReadsBack AttributeValue.toJson AttributeValue.ofJson
    | .flag _ => rfl
    | .text _ => rfl
  exact hValue.map attributes

theorem readsBack_state : ReadsBack StoredState.toJson StoredState.ofJson := by
  intro s
  apply read_ofFields
  · rfl
  · decide
  · intro record hLookup
    simp [hLookup, List.lookup_cons, readsBack_expression s.expression]

@[simp] theorem readsBack_states (states : List StoredState) :
    asList StoredState.ofJson (ofList StoredState.toJson states) = .ok states :=
  readsBack_state.list states

/-! ## Components -/

theorem Component.itemsOfJson_itemsToJson {children : List Component}
    (h : ∀ child ∈ children, Component.ofJson child.toJson = .ok child) :
    Component.itemsOfJson (Component.itemsToJson children) = .ok children := by
  induction children with
  | nil => rfl
  | cons child children ih =>
      rw [Component.itemsToJson, Component.itemsOfJson, h child List.mem_cons_self, ok_bind,
        ih fun other hm => h other (List.mem_cons_of_mem _ hm)]
      rfl

/-- A component is read from the fields of its element and from the field of its children. -/
theorem Component.ofJson_ofFields {fields : List (String × Option Json)} {element : Element}
    {children : List Component}
    (hElement : (asRecord Component.fieldNames (ofFields fields) >>= Element.ofRecord) =
      .ok element)
    (hChildren : Component.childrenByName (written fields) = .ok children) :
    Component.ofJson (ofFields fields) = .ok (.node element children) := by
  show Component.ofJson (.object (written fields)) = _
  rw [Component.ofJson, hChildren, ← bind_assoc]
  exact congrArg (· >>= fun element => Except.ok (Component.node element children)) hElement

theorem Component.ofJson_toJson (tree : Component) : Component.ofJson tree.toJson = .ok tree := by
  induction tree using Component.induction with
  | hNode element children ih =>
      rw [Component.toJson]
      apply Component.ofJson_ofFields
      · apply read_ofFields
        · rfl
        · decide
        · intro record hLookup
          simp [Element.ofRecord, hLookup, List.lookup_cons]
      · exact Component.itemsOfJson_itemsToJson ih

/-! ## Settings and pages -/

@[simp] theorem asTick_bool (value : Bool) : asTick (.bool value) = .ok value := rfl

@[simp] theorem fieldOr_formText (text : Option String) :
    fieldOr none asFormText (text.map .string) = .ok text := by
  cases text <;> rfl

theorem readsBack_settings : ReadsBack PageSettings.toJson PageSettings.ofJson := by
  intro s
  apply read_ofFields
  · rfl
  · decide
  · intro record hLookup
    simp [hLookup, List.lookup_cons]

theorem readsBack_page : ReadsBack Page.toJson Page.ofJson := by
  intro p
  apply read_ofFields
  · rfl
  · decide
  · intro record hLookup
    simp [hLookup, List.lookup_cons, readsBack_settings p.settings,
      Component.ofJson_toJson p.component]

/-! ## Data sources -/

@[simp] theorem readsBack_sourceKind (kind : SourceKind) :
    asChoice (fun name => some (SourceKind.named name)) (.string kind.name) = .ok kind := by
  cases kind <;> rfl

@[simp] theorem readsBack_headers (headers : Option (OrderedMap String)) :
    asHeaders (ofHeaders headers) = .ok headers :=
  ReadsBack.option (ReadsBack.map asString_string) (fun _ => nofun) headers

theorem readsBack_transport : ReadsBack Transport.toJson Transport.ofJson := by
  intro t
  apply read_ofFields
  · rfl
  · decide
  · intro record hLookup
    simp [hLookup, List.lookup_cons]

theorem readsBack_source : ReadsBack DataSource.toJson DataSource.ofJson := by
  intro d
  apply read_ofFields
  · rfl
  · decide
  · intro record hLookup
    have hServer := readsBack_transport.option (fun _ => nofun) d.serverToServer
    simp [hLookup, hServer, List.lookup_cons]

/-! ## Options -/

/-- The patch that sets every folder. -/
def Folders.asPatch (f : Folders) : FoldersPatch :=
  ⟨some f.input, some f.project, some f.html, some f.css, some f.assets⟩

/-- The patch that sets every address. -/
def Addresses.asPatch (a : Addresses) : AddressesPatch := ⟨some a.css, some a.assets⟩

/-- The patch that sets everything that options say. -/
def Options.asPatch (o : Options) : OptionsPatch where
  enabled := some o.enabled
  fetchPlugin := o.fetchPlugin
  cacheBuster := some o.cacheBuster
  folders := some o.folders.asPatch
  addresses := some o.addresses.asPatch
  globalSources := some o.globalSources
  aliasPages := some o.aliasPages

/-- Options that are layered over others replace them, but for a fetch plugin that they lack. -/
theorem Options.layer_asPatch (base o : Options) :
    base.layer o.asPatch = { o with fetchPlugin := o.fetchPlugin.or base.fetchPlugin } := rfl

theorem readsBack_cacheBuster :
    ReadsBack (fun cacheBuster => .string (CacheBuster.name cacheBuster))
      (asChoice CacheBuster.named?) := by
  apply readsBack_choice
  intro cacheBuster
  cases cacheBuster <;> rfl

theorem FoldersPatch.ofJson_toJson (f : Folders) :
    FoldersPatch.ofJson f.toJson = .ok f.asPatch := by
  apply read_ofFields
  · rfl
  · decide
  · intro record hLookup
    simp [hLookup, List.lookup_cons, Folders.asPatch]

theorem AddressesPatch.ofJson_toJson (a : Addresses) :
    AddressesPatch.ofJson a.toJson = .ok a.asPatch := by
  apply read_ofFields
  · rfl
  · decide
  · intro record hLookup
    simp [hLookup, List.lookup_cons, Addresses.asPatch]

theorem OptionsPatch.ofJson_toJson (o : Options) :
    OptionsPatch.ofJson o.toJson = .ok o.asPatch := by
  apply read_ofFields
  · rfl
  · decide
  · intro record hLookup
    have hPlugin := readsBack_value.map.option (fun _ => nofun) o.fetchPlugin
    have hCacheBuster := asOption_eq_some (readsBack_cacheBuster o.cacheBuster) nofun
    have hFolders := asOption_eq_some (FoldersPatch.ofJson_toJson o.folders) nofun
    have hAddresses := asOption_eq_some (AddressesPatch.ofJson_toJson o.addresses) nofun
    have hSources := asOption_eq_some (ReadsBack.list asString_string o.globalSources) nofun
    simp [hLookup, List.lookup_cons, hPlugin, hCacheBuster, hFolders, hAddresses, hSources,
      Options.asPatch]

/-- The configuration that a tree describes: its patch over the defaults. -/
def Options.ofJson (json : Json) : Except Json.Error Options :=
  (OptionsPatch.ofJson json).map ({} : Options).layer

theorem Options.read_eq (text : String) :
    Options.read text = Json.read text >>= Options.ofJson := by
  rw [Options.read, OptionsPatch.read]
  cases Json.read text with
  | error error => rfl
  | ok json =>
      rw [ok_bind, ok_bind, Options.ofJson]
      cases OptionsPatch.ofJson json <;> rfl

theorem readsBack_options : ReadsBack Options.toJson Options.ofJson := by
  intro o
  rw [Options.ofJson, OptionsPatch.ofJson_toJson, Except.map, Options.layer_asPatch]
  cases o with
  | mk _ plugin _ _ _ _ _ => cases plugin <;> rfl

/-! ## Documents -/

section

variable {α : Type}

/-- Reading a document and writing what was read. -/
def rewritten (write : α → Json) (read : Json → Except Json.Error α) (document : Json) :
    Except Json.Error Json :=
  (read document).map write

/-- Values that are stored are read back, and what was read and written once is written the same
way when it is read again. -/
structure Survives (write : α → Json) (read : Json → Except Json.Error α) : Prop where
  readsBack : ReadsBack write read
  settles : ∀ document, (rewritten write read document >>= rewritten write read) =
    rewritten write read document

theorem Json.ReadsBack.survives {write : α → Json} {read : Json → Except Json.Error α}
    (h : ReadsBack write read) : Survives write read where
  readsBack := h
  settles := by
    intro document
    rw [rewritten]
    cases read document with
    | error error => rfl
    | ok value =>
        show rewritten write read (write value) = _
        rw [rewritten, h value]

end

/-- Every document survives being stored. Options do so as a text too, whatever printer wrote the
text, as long as the tree of the text is the one that was printed. -/
theorem documents_survive :
    Survives Expression.toJson Expression.ofJson ∧
      Survives PageSettings.toJson PageSettings.ofJson ∧
      Survives Component.toJson Component.ofJson ∧
      Survives Page.toJson Page.ofJson ∧
      Survives DataSource.toJson DataSource.ofJson ∧
      Survives Options.toJson Options.ofJson ∧
      ∀ (o : Options) (text : String), Json.read text = .ok o.toJson →
        Options.read text = .ok o := by
  have hComponent : ReadsBack Component.toJson Component.ofJson := Component.ofJson_toJson
  refine ⟨readsBack_expression.survives, readsBack_settings.survives, hComponent.survives,
    readsBack_page.survives, readsBack_source.survives, readsBack_options.survives, ?_⟩
  intro o text hText
  rw [Options.read_eq, hText]
  exact readsBack_options o

/-- Options that differ from the defaults in every part. -/
def thoroughOptions : Options where
  enabled := false
  fetchPlugin := some (.ofList [("type", .string "json")])
  cacheBuster := .build
  folders := { input := "src", css := "" }
  addresses := { assets := "" }
  globalSources := []
  aliasPages := false

theorem thoroughOptions_survive :
    Json.read thoroughOptions.toJson.compact = .ok thoroughOptions.toJson ∧
      Options.read thoroughOptions.toJson.compact = .ok thoroughOptions := by
  obtain ⟨-, -, -, -, -, -, hOptions⟩ := documents_survive
  have hText : Json.read thoroughOptions.toJson.compact = .ok thoroughOptions.toJson := by cbv
  exact ⟨hText, hOptions _ _ hText⟩

end PagePress
