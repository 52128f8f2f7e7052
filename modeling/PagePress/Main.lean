import PagePress.Cli.Run

/-!
# The command line

Connects the commands to the file system and the standard streams.
-/

namespace PagePress.Cli

/-- What a failed file operation is called. -/
def faultOf : IO.Error → DiskFault
  | .noFileOrDirectory _ _ _ => .notFound
  | .noSuchThing _ _ _ => .notFound
  | .alreadyExists _ _ _ => .exists
  | .inappropriateType _ code details =>
    if code = 21 then .isAFolder
    else if code = 20 then .notAFolder
    else .other (details ++ " (os error " ++ toString code.toNat ++ ")")
  | error => .other (toString error)

/-- The result of a file operation. -/
def attempt {α : Type} (action : IO α) : IO (Except DiskFault α) := do
  try
    return .ok (← action)
  catch error =>
    return .error (faultOf error)

/-- What a path leads to. -/
def kindOnDisk (path : String) : IO (Option EntryKind) := do
  try
    let full := (← IO.currentDir) / path
    if path.isEmpty then return none
    else if ← full.isDir then return some .folder
    else if ← full.pathExists then return some .file
    else return none
  catch _ => return none

/-- The paths of all files below a folder, by name. -/
partial def filesOnDisk (path : String) : IO (List String) := do
  try
    let entries ← ((← IO.currentDir) / path).readDir
    let names := (entries.toList.map fun entry => entry.fileName).mergeSort
      fun a b => a < b || a = b
    let mut found := []
    for name in names do
      let next := FilePath.join path name
      match ← kindOnDisk next with
      | some .folder => found := found ++ (← filesOnDisk next)
      | some .file => found := found ++ [next]
      | none => pure ()
    return found
  catch _ => return []

/-- Random numbers. -/
def randomOnDisk (count : Nat) : IO (List UInt32) :=
  (List.range count).mapM fun _ => return UInt32.ofNat (← IO.rand 0 4294967295)

/-- The file system. -/
def systemDisk : Disk IO where
  kind? := kindOnDisk
  read path := attempt (IO.FS.readFile path)
  write path content := attempt (IO.FS.writeFile path content)
  makeFolder path := attempt (IO.FS.createDir path)
  filesBelow := filesOnDisk
  random := randomOnDisk

/-- The text for a command line that asks for help or is misused. -/
def usage : String :=
  "Usage: page-press [--config FILE] COMMAND\n\nCommands:\n" ++
    "  publish PATH [--out FOLDER] [--json]\n" ++
    "  compile --expression JSON [--component-id ID]\n" ++
    "  fields PATH\n"

/-- Runs a command line. -/
def runWords (words : List String) : IO UInt32 := do
  match parse words with
  | .error .help =>
    IO.print usage
    return 0
  | .error .misuse =>
    IO.eprint usage
    return 2
  | .ok invocation =>
    let start ← IO.monoMsNow
    let (code, report) ← run systemDisk invocation
    let time := toString ((← IO.monoMsNow) - start) ++ "ms"
    IO.print report.output
    IO.eprint (report.errorText time)
    return code

end PagePress.Cli

/-- The program. -/
def main (words : List String) : IO UInt32 :=
  PagePress.Cli.runWords words
