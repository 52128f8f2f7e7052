import PagePress.Page.Settings
import PagePress.Page.Stored

/-!
# Pages

A page has a name, which gives its file its name, its settings, and the component that is its body.
-/

namespace PagePress

open Json

/-- A page of a site. -/
structure Page where
  name : String
  settings : PageSettings
  component : Component

instance : Inhabited Page := ⟨"", {}, .leaf {}⟩

/-- The fields of a page. -/
def Page.fieldNames : List String := ["name", "settings", "component"]

/-- A page as JSON. -/
def Page.toJson (p : Page) : Json :=
  ofFields
    [("name", some (.string p.name)),
     ("settings", some p.settings.toJson),
     ("component", some p.component.toJson)]

/-- A stored page. -/
def Page.ofJson (json : Json) : Except Json.Error Page := do
  let record ← asRecord Page.fieldNames json
  return {
    name := ← record.optional "name" "" asString
    settings := ← record.optional "settings" {} PageSettings.ofJson
    component := ← record.optional "component" (.leaf {}) Component.ofJson }

end PagePress
