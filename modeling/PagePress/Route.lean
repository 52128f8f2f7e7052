import PagePress.Options

/-!
# Routes

Where a published file lies in the generator's input tree, and the address that it is found under.
Both are paths joined from folders: each segment loses one slash at either end, and a segment of
which nothing is left is skipped.
-/

namespace PagePress

/-- What a published file is. -/
inductive FileType where
  | html
  | css
  | asset
  | other
deriving DecidableEq, Repr, Inhabited

/-- The name of a file type. -/
def FileType.name : FileType → String
  | .html => "html"
  | .css => "css"
  | .asset => "asset"
  | .other => "other"

/-- The file type of a name. -/
def FileType.named? : String → Option FileType
  | "html" => some .html
  | "css" => some .css
  | "asset" => some .asset
  | "other" => some .other
  | _ => none

namespace Route

/-! ## Joining -/

/-- A text without the slash at its start, when it has one. -/
def dropLeadingSlash : List Char → List Char
  | '/' :: rest => rest
  | cs => cs

/-- A text without the slash at its end, when it has one. -/
def dropTrailingSlash : List Char → List Char
  | [] => []
  | ['/'] => []
  | c :: cs => c :: dropTrailingSlash cs

/-- A segment without one slash at either end. -/
def trimSlashes (segment : String) : String :=
  String.ofList (dropTrailingSlash (dropLeadingSlash segment.toList))

/-- The absolute path of segments. -/
def joined (segments : List String) : String :=
  "/" ++ "/".intercalate ((segments.map trimSlashes).filter fun segment => !segment.isEmpty)

/-- The rest of a text after something that it starts with. -/
def after? : List Char → List Char → Option (List Char)
  | [], cs => some cs
  | _ :: _, [] => none
  | p :: ps, c :: cs => if p = c then after? ps cs else none

/-- A path without a folder at its start, whether or not a slash stands before the folder. -/
def dropFolder (folder : String) (path : String) : String :=
  match after? (folder ++ "/").toList (dropLeadingSlash path.toList) with
  | some rest => String.ofList rest
  | none => path

/-! ## Files -/

/-- The folders that every location starts with. -/
def rootFolders (folders : Folders) : List String := [folders.input, folders.project]

/-- Where a published file lies. -/
def location (options : Options) (type : FileType) (path : String) : String :=
  if !options.enabled then path
  else
    let folders := options.folders
    match type with
    | .html => joined (rootFolders folders ++ [folders.html, path])
    | .css => joined (rootFolders folders ++ [folders.css, dropFolder "css" path])
    | .asset => joined (rootFolders folders ++ [folders.assets, dropFolder "assets" path])
    | .other => path

/-- The address that a published file is found under. -/
def address (options : Options) (type : FileType) (path : String) : String :=
  if !options.enabled then path
  else match type with
    | .html => joined [path]
    | .css => joined [options.addresses.css, dropFolder "css" path]
    | .asset => joined [options.addresses.assets, dropFolder "assets" path]
    | .other => path

/-- A path with a language before its extension, when it has that extension. -/
def withLanguage (extension lang path : String) : String :=
  match after? extension.toList.reverse path.toList.reverse with
  | some stem => String.ofList stem.reverse ++ "-" ++ lang ++ extension
  | none => path

end Route

end PagePress
