import PagePress.Cli.Disk

/-!
# File trees

A disk as a value: files and folders by their place, which is the list of names that leads to them
from the root. A path starts at the root when it is absolute and else at the working folder. It is
followed name by name; a dot stays, a double dot goes up, and every step but the last must be at a
folder.

## Main results

* `lookup_insert` — what was written at a place is found there.
-/

namespace PagePress.Cli

/-- Names that lead from the root to an entry. -/
abbrev Place := List String

/-- A file with its text, or a folder. -/
inductive Entry where
  | file (content : String)
  | folder
deriving DecidableEq, Repr

/-- The kind of an entry. -/
def Entry.kind : Entry → EntryKind
  | .file _ => .file
  | .folder => .folder

/-- Entries by place. The root is a folder and has no entry. -/
structure FileTree where
  /-- The folder that a path starts at unless it is absolute. -/
  working : Place
  entries : List (Place × Entry)

namespace FileTree

/-- The tree with nothing in it but a working folder and the folders that it lies in. -/
def emptyAt (working : Place) : FileTree where
  working := working
  entries := (List.range working.length).map fun n => (working.take (n + 1), .folder)

/-! ## Entries -/

/-- What is at a place. -/
def lookup (tree : FileTree) (place : Place) : Option Entry :=
  if place.isEmpty then some .folder else tree.entries.lookup place

/-- The tree with an entry at a place. -/
def insert (tree : FileTree) (place : Place) (entry : Entry) : FileTree :=
  if (tree.entries.lookup place).isSome then
    { tree with
      entries := tree.entries.map fun old => if old.1 = place then (place, entry) else old }
  else { tree with entries := tree.entries ++ [(place, entry)] }

/-! ## Following paths -/

/-- The greatest number of bytes in a name. -/
def nameLimit : Nat := 255

/-- The greatest number of bytes in a path. -/
def pathLimit : Nat := 4095

/-- Goes from a place to the next name of a path. -/
def step (tree : FileTree) (place : Place) (name : String) : Except DiskFault Place :=
  if tree.lookup place ≠ some .folder then .error .notAFolder
  else if name = "" || name = "." then .ok place
  else if name = ".." then .ok place.dropLast
  else if nameLimit < name.utf8ByteSize then .error .nameTooLong
  else
    let next := place ++ [name]
    if (tree.lookup next).isSome then .ok next else .error .notFound

/-- Follows names from a place. -/
def follow (tree : FileTree) : Place → List String → Except DiskFault Place
  | place, [] => .ok place
  | place, name :: rest => do
    follow tree (← tree.step place name) rest

/-- Accepts a path that a disk can look at. -/
def checkPath (path : String) : Except DiskFault Unit :=
  if path.toList.contains '\x00' then .error .nulInName
  else if path.isEmpty then .error .notFound
  else if pathLimit < path.utf8ByteSize then .error .nameTooLong
  else .ok ()

/-- The folder that a path starts at. -/
def start (tree : FileTree) (path : String) : Place :=
  if FilePath.isAbsolute path then [] else tree.working

/-- The place that a path leads to. -/
def resolve (tree : FileTree) (path : String) : Except DiskFault Place := do
  checkPath path
  tree.follow (tree.start path) (Text.cutText '/' path)

/-- The entry that a path leads to. -/
def entry (tree : FileTree) (path : String) : Except DiskFault Entry := do
  match tree.lookup (← tree.resolve path) with
  | some entry => return entry
  | none => throw .notFound

/-! ## Operations -/

/-- What a path leads to, if anything. -/
def kind? (tree : FileTree) (path : String) : Option EntryKind :=
  match tree.entry path with
  | .ok entry => some entry.kind
  | .error _ => none

/-- The text of a file. -/
def read (tree : FileTree) (path : String) : Except DiskFault String :=
  match tree.entry path with
  | .ok (.file content) => .ok content
  | .ok .folder => .error .isAFolder
  | .error fault => .error fault

/-- The names of a path without the empty ones that slashes at its end leave, and whether there were
any. -/
def namesOf (path : String) : List String × Bool :=
  let names := Text.cutText '/' path
  let kept := (names.reverse.dropWhile fun name => name.isEmpty).reverse
  (kept, kept.length < names.length)

/-- The folder and the name of a new entry that names lead to from a place; no name when they lead
to a folder that must be there already. -/
def newEntry (tree : FileTree) (place : Place) (names : List String) :
    Except DiskFault (Place × Option String) := do
  match names.getLast? with
  | none => return (place, none)
  | some name =>
    let folder ← tree.follow place names.dropLast
    if tree.lookup folder ≠ some .folder then throw .notAFolder
    if name = "." || name = ".." || name = "" then return (folder, none)
    if nameLimit < name.utf8ByteSize then throw .nameTooLong
    return (folder, some name)

/-- The tree with a folder made in a folder that is there. -/
def makeFolder (tree : FileTree) (path : String) : Except DiskFault FileTree := do
  checkPath path
  match ← tree.newEntry (tree.start path) (namesOf path).1 with
  | (_, none) => throw .exists
  | (folder, some name) =>
    let place := folder ++ [name]
    if (tree.lookup place).isSome then throw .exists
    return tree.insert place .folder

/-- The tree with a file written into a folder that is there. -/
def write (tree : FileTree) (path content : String) : Except DiskFault FileTree := do
  checkPath path
  let (names, slashed) := namesOf path
  match ← tree.newEntry (tree.start path) names with
  | (_, none) => throw .isAFolder
  | (folder, some name) =>
    let place := folder ++ [name]
    if slashed || tree.lookup place = some .folder then throw .isAFolder
    return tree.insert place (.file content)

/-- The names that lead from a place to another one below it. -/
def below? : Place → Place → Option Place
  | [], place => some place
  | _ :: _, [] => none
  | a :: as, b :: bs => if a = b then below? as bs else none

/-- The names that lead from a folder to a file below it. -/
def fileBelow? (folder : Place) (entry : Place × Entry) : Option Place :=
  match entry.2 with
  | .folder => none
  | .file _ => below? folder entry.1

/-- Whether one list of names comes before another, name by name. -/
def comesBefore : Place → Place → Bool
  | [], _ => true
  | _ :: _, [] => false
  | a :: as, b :: bs => a < b || (a = b && comesBefore as bs)

/-- The paths of all files below a folder, by name. -/
def filesBelow (tree : FileTree) (path : String) : List String :=
  match tree.resolve path with
  | .error _ => []
  | .ok folder =>
    ((tree.entries.filterMap (fileBelow? folder)).mergeSort comesBefore).map fun names =>
      names.foldl FilePath.join path

/-- The tree after a change, or the tree as it was and the fault. -/
def apply (change : FileTree → Except DiskFault FileTree) :
    StateM FileTree (Except DiskFault Unit) := do
  match change (← get) with
  | .ok tree =>
    set tree
    return .ok ()
  | .error fault => return .error fault

/-- File trees as disks. They have no random numbers. -/
def disk : Disk (StateM FileTree) where
  kind? path := return (← get).kind? path
  read path := return (← get).read path
  write path content := apply fun tree => tree.write path content
  makeFolder path := apply fun tree => tree.makeFolder path
  filesBelow path := return (← get).filesBelow path
  random _ := return []

/-- The tree of files below a working folder, with the folders that they lie in. -/
def ofFiles (working : Place) (files : List (String × String)) : FileTree :=
  files.foldl (fun tree file => (((disk.writeFile file.1 file.2).run tree) : _ × FileTree).2)
    (emptyAt working)

/-- The path and the text of an entry below the working folder, when it is a file. -/
def file? (tree : FileTree) (entry : Place × Entry) : Option (String × String) := do
  let names ← below? tree.working entry.1
  match entry.2 with
  | .file content => return ("/".intercalate names, content)
  | .folder => none

/-- The files below the working folder by path. -/
def files (tree : FileTree) : List (String × String) :=
  tree.entries.filterMap tree.file?

theorem lookup_replace {entries : List (Place × Entry)} {place : Place} (entry : Entry)
    (h : (entries.lookup place).isSome = true) :
    (entries.map fun old => if old.1 = place then (place, entry) else old).lookup place =
      some entry := by
  induction entries with
  | nil => cases h
  | cons old rest ih =>
    obtain ⟨k, v⟩ := old
    by_cases hk : place = k
    · subst hk
      simp
    · have hb : (place == k) = false := by simpa using hk
      have hk' : k ≠ place := fun h => hk h.symm
      simp only [List.lookup_cons, hb] at h
      simp [List.lookup_cons, hk', hb, ih h]

theorem lookup_snoc {entries : List (Place × Entry)} {place : Place} (entry : Entry)
    (h : entries.lookup place = none) :
    (entries ++ [(place, entry)]).lookup place = some entry := by
  induction entries with
  | nil => simp
  | cons old rest ih =>
    obtain ⟨k, v⟩ := old
    by_cases hk : place = k
    · subst hk
      simp at h
    · have hb : (place == k) = false := by simpa using hk
      simp only [List.lookup_cons, hb] at h
      simp [List.lookup_cons, hb, ih h]

theorem lookup_insert (tree : FileTree) {place : Place} (entry : Entry) (h : place ≠ []) :
    (tree.insert place entry).lookup place = some entry := by
  have hp : place.isEmpty = false := by
    cases place with
    | nil => exact absurd rfl h
    | cons _ _ => rfl
  unfold insert
  split
  · rename_i hs
    simp only [lookup, hp]
    exact lookup_replace entry hs
  · rename_i hs
    simp only [lookup, hp]
    exact lookup_snoc entry (Option.not_isSome_iff_eq_none.1 hs)

end FileTree

end PagePress.Cli
