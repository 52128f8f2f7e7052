import PagePress.Cli.Arguments
import PagePress.Cli.Disk
import PagePress.Cli.Report

/-!
# Commands

What each command does on a disk and what it tells. A command stops at the first error, after which
nothing more is written; what was written before stays.

A command runs in any monad that has a disk. It is a step that may stop, with the report so far as
its state.
-/

namespace PagePress.Cli

/-- A step of a command. It may stop, which makes the command fail. -/
abbrev Step (m : Type → Type) := ExceptT Unit (StateT Report m)

section

variable {m : Type → Type} [Monad m]

/-! ## Telling and stopping -/

/-- Tells a line. -/
def tell (line : Line) : Step m Unit :=
  modify fun report => { report with lines := report.lines ++ [line] }

/-- Prints a line of text. -/
def printLine (text : String) : Step m Unit :=
  modify fun report => { report with output := report.output ++ text ++ "\n" }

/-- Tells a line and stops. -/
def stopWith {α : Type} (line : Line) : Step m α := do
  tell line
  throw ()

/-- The result of something that may fail in a context. -/
def orStop {α : Type} (context : String) : Except PublishError α → Step m α
  | .ok result => pure result
  | .error error => stopWith (.failure error context)

/-- Asks the disk. -/
def ask {α : Type} (question : m α) : Step m α :=
  ExceptT.lift (StateT.lift question)

/-! ## Reading -/

/-- The text of a file. -/
def readFile (disk : Disk m) (path context : String) : Step m String := do
  match ← ask (disk.read path) with
  | .ok text => return text
  | .error fault => stopWith (.failure (.io path fault.text) context)

/-- The options of a command: those of its options file over the defaults. -/
def readOptions (disk : Disk m) : Option String → Step m Options
  | none => return {}
  | some path => do
    let text ← readFile disk path ""
    match Options.read text with
    | .ok options => return options
    | .error error => stopWith (.failure (.invalidOptions error) "")

/-- The site document at a path. -/
def readSite (disk : Disk m) (path : String) : Step m Site := do
  let text ← readFile disk path path
  match Site.read text with
  | .ok site => return site
  | .error error => stopWith (.failure (.malformed error) path)

/-! ## Publishing -/

/-- How many random numbers publishing a site can use: one for the pass and one for each query. -/
def randomNeed (site : Site) : Nat :=
  site.pages.foldr (fun page need => (site.pageQuery page).entries.length + need) 1

/-- The context of a pass with its random numbers. -/
def freshContext (options : Options) : List UInt32 → Context
  | [] => Context.start options 0 []
  | build :: salts => Context.start options build salts

/-- Where a published file goes below a folder. -/
def target (out path : String) : String :=
  FilePath.join out (String.ofList (path.toList.dropWhile (· = '/')))

/-- Writes published files below a folder. -/
def writeFiles (disk : Disk m) (out context : String) : List PublishedFile → Step m Unit
  | [] => return ()
  | file :: files => do
    let path := target out file.path
    match ← ask (disk.writeFile path file.content) with
    | .error fault => stopWith (.failure (.io path fault.text) context)
    | .ok () =>
      tell (.wrote path)
      writeFiles disk out context files

/-- Tells several notices. -/
def tellNotices : List Notice → Step m Unit
  | [] => return ()
  | notice :: notices => do
    tell (.notice notice)
    tellNotices notices

/-- Publishes a site document below a folder, or prints its release, and counts its files. -/
def publishDocument (disk : Disk m) (options : Options) (path out : String) (json : Bool) :
    Step m Nat := do
  let site ← readSite disk path
  let random ← ask (disk.random (randomNeed site))
  let publication ← orStop path (site.publishIn options (freshContext options random)).1
  tellNotices publication.notices
  if json then
    printLine publication.release.toJson.wide
  else
    writeFiles disk out path publication.files
  return publication.files.length

/-- Publishes site documents, each below a folder of its own name, and counts their files. -/
def publishDocuments (disk : Disk m) (options : Options) (out : String) (json : Bool) :
    List (String × String) → Step m Nat
  | [] => return 0
  | (path, stem) :: rest => do
    let count ← publishDocument disk options path (FilePath.join out stem) json
    let more ← publishDocuments disk options out json rest
    return count + more

/-- Tells how many files were published, unless they were printed. -/
def tellCount (json : Bool) (count : Nat) : Step m Unit :=
  if json then return () else tell (.published count)

/-- The site documents among files, with their names. -/
def siteDocuments (paths : List String) : List (String × String) :=
  paths.filterMap fun path => (FilePath.siteStem? path).map fun stem => (path, stem)

/-- Publishes the site document or the folder of site documents at a path. -/
def publish (disk : Disk m) (options : Options) (path out : String) (json : Bool) :
    Step m Unit := do
  match ← ask (disk.kind? path) with
  | none => stopWith (.missing path)
  | some .file =>
    if (FilePath.siteStem? path).isNone then
      stopWith (.notASite path)
    tellCount json (← publishDocument disk options path out json)
  | some .folder =>
    let documents := siteDocuments (← ask (disk.filesBelow path))
    if documents.isEmpty then
      stopWith (.noSites path)
    tellCount json (← publishDocuments disk options out json documents)

/-! ## The other commands -/

/-- Prints a compiled expression. -/
def compile (options : Options) (expression elementId : String) : Step m Unit := do
  printLine (← orStop "--expression" (compileExpression options expression elementId))

/-- A field as it is listed. -/
def fieldText (field : Field) : String :=
  field.dataSourceId.getD "-" ++ "." ++ field.id ++ "\t" ++ field.kind.name

/-- Prints several lines of text. -/
def printLines : List String → Step m Unit
  | [] => return ()
  | line :: lines => do
    printLine line
    printLines lines

/-- Lists the fields of a site document that pages can be generated from. -/
def listFields (disk : Disk m) (path : String) : Step m Unit := do
  let site ← readSite disk path
  printLines (site.queryableFields.map fieldText)

/-! ## Invocations -/

/-- Does what was asked for. -/
def perform (disk : Disk m) (invocation : Invocation) : Step m Unit := do
  let options ← readOptions disk invocation.config
  match invocation.command with
  | .publish path out json => publish disk options path out json
  | .compile expression elementId => compile options expression elementId
  | .fields path => listFields disk path

/-- The exit code of a command that ended or stopped. -/
def exitCode : Except Unit Unit → UInt32
  | .ok () => 0
  | .error () => 1

/-- Runs what was asked for; gives the exit code and the report. -/
def run (disk : Disk m) (invocation : Invocation) : m (UInt32 × Report) := do
  let (result, report) ← (perform disk invocation).run.run {}
  return (exitCode result, report)

end

end PagePress.Cli
