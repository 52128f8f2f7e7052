import PagePress.FilePath

/-!
# Disks

What the command line needs of a file system, in any monad: reading and writing one file, making one
folder, telling what a path leads to, and listing the files below a folder. Making a folder with all
the folders above it is built from these.
-/

namespace PagePress.Cli

/-- Why an operation on a disk failed. -/
inductive DiskFault where
  | notFound
  | exists
  | notAFolder
  | isAFolder
  | nameTooLong
  | nulInName
  | other (text : String)
deriving DecidableEq, Repr

/-- What a fault is called. -/
def DiskFault.text : DiskFault → String
  | .notFound => "No such file or directory (os error 2)"
  | .exists => "File exists (os error 17)"
  | .notAFolder => "Not a directory (os error 20)"
  | .isAFolder => "Is a directory (os error 21)"
  | .nameTooLong => "File name too long (os error 36)"
  | .nulInName => "file name contained an unexpected NUL byte"
  | .other text => text

/-- What a path leads to. -/
inductive EntryKind where
  | file
  | folder
deriving DecidableEq, Repr

/-- The operations of a disk. -/
structure Disk (m : Type → Type) where
  /-- What a path leads to, if anything. -/
  kind? : String → m (Option EntryKind)
  /-- The text of a file. -/
  read : String → m (Except DiskFault String)
  /-- Writes a file into a folder that is there. -/
  write : String → String → m (Except DiskFault Unit)
  /-- Makes a folder in a folder that is there. -/
  makeFolder : String → m (Except DiskFault Unit)
  /-- The paths of all files below a folder, by name. -/
  filesBelow : String → m (List String)
  /-- Some random numbers, at most as many as asked for. -/
  random : Nat → m (List UInt32)

namespace Disk

variable {m : Type → Type} [Monad m]

/-- A path and the folders above it, the nearest first; the fuel bounds their number. -/
def ancestors : Nat → String → List String
  | 0, _ => []
  | fuel + 1, path =>
    path :: match FilePath.parent? path with
      | some folder => ancestors fuel folder
      | none => []

/-- Succeeds when a folder is there, whatever fault making it had. -/
def unlessFolder (disk : Disk m) (path : String) (fault : DiskFault) :
    m (Except DiskFault Unit) := do
  if (← disk.kind? path) = some .folder then return .ok () else return .error fault

/-- Makes the first of some folders, each of which lies in the next one, after those that it lies
in. The empty path is the folder that is always there. -/
def makeFolders (disk : Disk m) : List String → m (Except DiskFault Unit)
  | [] => return .error (.other "failed to create whole tree")
  | path :: above => do
    if path.isEmpty then
      return .ok ()
    match ← disk.makeFolder path with
    | .ok () => return .ok ()
    | .error .notFound =>
      match ← makeFolders disk above with
      | .error fault => return .error fault
      | .ok () =>
        match ← disk.makeFolder path with
        | .ok () => return .ok ()
        | .error fault => disk.unlessFolder path fault
    | .error fault => disk.unlessFolder path fault

/-- Writes a file after making the folders that it lies in. -/
def writeFile (disk : Disk m) (path content : String) : m (Except DiskFault Unit) := do
  match FilePath.parent? path with
  | none => disk.write path content
  | some folder =>
    match ← disk.makeFolders (ancestors (folder.length + 1) folder) with
    | .error fault => return .error fault
    | .ok () => disk.write path content

end Disk

end PagePress.Cli
