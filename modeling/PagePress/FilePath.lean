import PagePress.Route
import PagePress.Text.Lines

/-!
# File paths

A file path is text. It starts with a head, which is the root, a single dot, or nothing, and goes on
with segments between slashes. Empty segments and single dots at its end count for nothing, so the
last segment before them names the file, unless it is the double dot of the parent folder.
-/

namespace PagePress.FilePath

/-! ## Parts of a path -/

/-- The head of a path and the segments after it. -/
structure Parts where
  head : List Char
  segments : List (List Char)
deriving DecidableEq, Repr

/-- Whether a segment counts for nothing. -/
def isIdle (segment : List Char) : Bool := segment = [] || segment = ['.']

/-- Segments without the idle ones at their end. -/
def dropIdleEnd (segments : List (List Char)) : List (List Char) :=
  (segments.reverse.dropWhile isIdle).reverse

/-- Splits a path after its head. -/
def splitHead : List Char → List Char × List Char
  | '/' :: rest => (['/'], rest)
  | ['.'] => (['.'], [])
  | '.' :: '/' :: rest => (['.'], '/' :: rest)
  | cs => ([], cs)

/-- The parts of a path, idle segments at its end dropped. -/
def parts (path : String) : Parts :=
  let (head, body) := splitHead path.toList
  ⟨head, dropIdleEnd (Text.cut '/' body)⟩

/-- The text of parts. -/
def Parts.text (p : Parts) : String :=
  String.ofList (p.head ++ ['/'].intercalate p.segments)

/-! ## Names -/

/-- The name of the file that a path leads to. -/
def fileName? (path : String) : Option String :=
  match (parts path).segments.getLast? with
  | some ['.', '.'] => none
  | some segment => some (String.ofList segment)
  | none => none

/-- The path to the folder of what a path leads to. -/
def parent? (path : String) : Option String :=
  let p := parts path
  if p.segments.isEmpty then
    if p.head = ['.'] then some "" else none
  else some (Parts.text { p with segments := dropIdleEnd p.segments.dropLast })

/-- Whether a path starts at the root. -/
def isAbsolute (path : String) : Bool := path.toList.head? = some '/'

/-- A path with another one after it, which replaces it when it starts at the root. -/
def join (path next : String) : String :=
  if isAbsolute next then next
  else if path.isEmpty || path.toList.getLast? = some '/' then path ++ next
  else path ++ "/" ++ next

/-- A path with another name for its file. -/
def withFileName (path name : String) : String :=
  match fileName? path, parent? path with
  | some _, some folder => join folder name
  | _, _ => join path name

/-! ## Site documents -/

/-- The end of the names of files that hold site documents. -/
def siteExtension : String := ".site.json"

/-- A text without an ending, when it has it. -/
def dropSuffix? (ending text : String) : Option String :=
  (Route.after? ending.toList.reverse text.toList.reverse).map fun rest =>
    String.ofList rest.reverse

/-- The name of a site document without its extension; no other file has one. -/
def siteStem? (path : String) : Option String :=
  (fileName? path).bind (dropSuffix? siteExtension)

/-- The path of a file beside a site document that has another ending. -/
def sibling (path ending : String) : String :=
  withFileName path ((siteStem? path).getD "site" ++ ending)

end PagePress.FilePath
