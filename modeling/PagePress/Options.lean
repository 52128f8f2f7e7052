import PagePress.Json.Decode
import PagePress.Json.Reader

/-!
# Options

The configuration of a publisher, and partial configurations that are layered over it. A patch sets
the leaves that it names: folders and addresses one by one, lists and plugin options as a whole.
-/

namespace PagePress

open Json

/-- How the address of a data request is made unique. -/
inductive CacheBuster where
  | none
  /-- A fresh number for every request. -/
  | random
  /-- One number for a whole pass. -/
  | build
deriving DecidableEq, Repr, Inhabited

/-- The name of a cache buster. -/
def CacheBuster.name : CacheBuster → String
  | .none => "none"
  | .random => "random"
  | .build => "build"

/-- The cache buster of a name. -/
def CacheBuster.named? : String → Option CacheBuster
  | "none" => some .none
  | "random" => some .random
  | "build" => some .build
  | _ => Option.none

/-- Folders of the generator's input tree. -/
structure Folders where
  input : String := ""
  /-- The folder of the whole project inside the input folder. -/
  project : String := ""
  html : String := ""
  css : String := "css"
  assets : String := "assets"
deriving DecidableEq, Repr

/-- Addresses that published files are found under. -/
structure Addresses where
  css : String := "/css"
  assets : String := "/assets"
deriving DecidableEq, Repr

/-- The configuration of a publisher. -/
structure Options where
  /-- Whether files move into the generator's input tree and get front matter. -/
  enabled : Bool := true
  /-- The options of the generator's fetch plugin; without them the plain request is used. -/
  fetchPlugin : Option (OrderedMap Json.Value) := none
  cacheBuster : CacheBuster := .random
  folders : Folders := {}
  addresses : Addresses := {}
  /-- Data sources that the generator itself provides. -/
  globalSources : List String := ["eleventy"]
  /-- Whether the list of pagination pages is published too. -/
  aliasPages : Bool := true

instance : Inhabited Options := ⟨{}⟩

/-- Whether a data source is one that the generator provides. -/
def Options.isGlobalSource (o : Options) (id : String) : Bool :=
  o.globalSources.contains id

/-! ## Patches -/

/-- A partial choice of folders. -/
structure FoldersPatch where
  input : Option String := none
  project : Option String := none
  html : Option String := none
  css : Option String := none
  assets : Option String := none
deriving DecidableEq, Repr

/-- A partial choice of addresses. -/
structure AddressesPatch where
  css : Option String := none
  assets : Option String := none
deriving DecidableEq, Repr

/-- A partial configuration. -/
structure OptionsPatch where
  enabled : Option Bool := none
  fetchPlugin : Option (OrderedMap Json.Value) := none
  cacheBuster : Option CacheBuster := none
  folders : Option FoldersPatch := none
  addresses : Option AddressesPatch := none
  globalSources : Option (List String) := none
  aliasPages : Option Bool := none

/-- The folders with those of a patch in place of theirs. -/
def Folders.layer (f : Folders) (patch : FoldersPatch) : Folders where
  input := patch.input.getD f.input
  project := patch.project.getD f.project
  html := patch.html.getD f.html
  css := patch.css.getD f.css
  assets := patch.assets.getD f.assets

/-- The addresses with those of a patch in place of theirs. -/
def Addresses.layer (a : Addresses) (patch : AddressesPatch) : Addresses where
  css := patch.css.getD a.css
  assets := patch.assets.getD a.assets

/-- A partial configuration layered over another. -/
def Options.layer (o : Options) (patch : OptionsPatch) : Options where
  enabled := patch.enabled.getD o.enabled
  fetchPlugin := patch.fetchPlugin.or o.fetchPlugin
  cacheBuster := patch.cacheBuster.getD o.cacheBuster
  folders := o.folders.layer (patch.folders.getD {})
  addresses := o.addresses.layer (patch.addresses.getD {})
  globalSources := patch.globalSources.getD o.globalSources
  aliasPages := patch.aliasPages.getD o.aliasPages

/-! ## Stored options -/

/-- The fields of a patch of folders. -/
def FoldersPatch.fieldNames : List String := ["input", "silex", "html", "css", "assets"]

/-- A stored patch of folders. -/
def FoldersPatch.ofJson (json : Json) : Except Json.Error FoldersPatch := do
  let record ← asRecord FoldersPatch.fieldNames json
  let text := fun name : String => record.optional name none (asOption asString)
  return {
    input := ← text "input"
    project := ← text "silex"
    html := ← text "html"
    css := ← text "css"
    assets := ← text "assets" }

/-- The fields of a patch of addresses. -/
def AddressesPatch.fieldNames : List String := ["css", "assets"]

/-- A stored patch of addresses. -/
def AddressesPatch.ofJson (json : Json) : Except Json.Error AddressesPatch := do
  let record ← asRecord AddressesPatch.fieldNames json
  let text := fun name : String => record.optional name none (asOption asString)
  return { css := ← text "css", assets := ← text "assets" }

/-- The fields of options. -/
def Options.fieldNames : List String :=
  ["enable11ty", "fetchPlugin", "cacheBuster", "dir", "urls", "globalDataSources",
    "aliasPaginationPages"]

/-- A stored partial configuration. -/
def OptionsPatch.ofJson (json : Json) : Except Json.Error OptionsPatch := do
  let record ← asRecord Options.fieldNames json
  return {
    enabled := ← record.optional "enable11ty" none (asOption asBool)
    fetchPlugin := ← record.optional "fetchPlugin" none (asOption (asMap Json.Value.ofJson))
    cacheBuster := ← record.optional "cacheBuster" none (asOption (asChoice CacheBuster.named?))
    folders := ← record.optional "dir" none (asOption FoldersPatch.ofJson)
    addresses := ← record.optional "urls" none (asOption AddressesPatch.ofJson)
    globalSources := ← record.optional "globalDataSources" none (asOption (asList asString))
    aliasPages := ← record.optional "aliasPaginationPages" none (asOption asBool) }

/-- The partial configuration that a text holds. -/
def OptionsPatch.read (text : String) : Except Json.Error OptionsPatch := do
  OptionsPatch.ofJson (← Json.read text)

/-- The configuration that a text describes: its patch over the defaults. -/
def Options.read (text : String) : Except Json.Error Options := do
  let patch ← OptionsPatch.read text
  return ({} : Options).layer patch

/-- Folders as JSON. -/
def Folders.toJson (f : Folders) : Json :=
  ofFields
    [("input", some (.string f.input)),
     ("silex", some (.string f.project)),
     ("html", some (.string f.html)),
     ("css", some (.string f.css)),
     ("assets", some (.string f.assets))]

/-- Addresses as JSON. -/
def Addresses.toJson (a : Addresses) : Json :=
  ofFields [("css", some (.string a.css)), ("assets", some (.string a.assets))]

/-- Options as JSON. -/
def Options.toJson (o : Options) : Json :=
  ofFields
    [("enable11ty", some (.bool o.enabled)),
     ("fetchPlugin", some (ofOption (ofMap Json.Value.json) o.fetchPlugin)),
     ("cacheBuster", some (.string o.cacheBuster.name)),
     ("dir", some o.folders.toJson),
     ("urls", some o.addresses.toJson),
     ("globalDataSources", some (ofList Json.string o.globalSources)),
     ("aliasPaginationPages", some (.bool o.aliasPages))]

end PagePress
