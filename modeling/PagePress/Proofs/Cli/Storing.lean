import PagePress.Proofs.Cli.Trees

/-!
# Storing several files

Files that are stored one after the other may meet at one place, and then the last of them is the
one that is kept. That and nothing else decides the text of every file afterwards: the last stored
file whose path leads there, or else the file that was there before.

## Main results

* `StoresEach.text_iff` — the text of every file after several files were stored.
* `StoresEach.read_all_iff` — every stored file is read back exactly when no two of them with
  different texts meet.
-/

namespace PagePress.Cli.FileTree

variable {tree middle next : FileTree} {place : Place} {file : String × String}
  {files : List (String × String)}

/-- Files, each a path and a text, are stored one after the other without a fault. -/
inductive StoresEach : FileTree → List (String × String) → FileTree → Prop
  | nil (tree : FileTree) : StoresEach tree [] tree
  | cons {tree middle next : FileTree} {file : String × String} {files : List (String × String)}
      (hFile : (disk.writeFile file.1 file.2).run tree = (.ok (), middle))
      (hRest : StoresEach middle files next) : StoresEach tree (file :: files) next

theorem storesEach_nil_iff : StoresEach tree [] next ↔ tree = next := by
  constructor
  · intro h
    cases h
    rfl
  · rintro rfl
    exact .nil tree

theorem storesEach_cons_iff : StoresEach tree (file :: files) next ↔
    ∃ middle, (disk.writeFile file.1 file.2).run tree = (.ok (), middle) ∧
      StoresEach middle files next := by
  constructor
  · intro h
    cases h with
    | cons hFile hRest => exact ⟨_, hFile, hRest⟩
  · rintro ⟨middle, hFile, hRest⟩
    exact .cons hFile hRest

/-- The tree after several files were stored, unless one of them has a fault. -/
def storeAll : FileTree → List (String × String) → Option FileTree
  | tree, [] => some tree
  | tree, file :: files =>
    match (disk.writeFile file.1 file.2).run tree with
    | (.ok (), middle) => storeAll middle files
    | (.error _, _) => none

theorem storeAll_eq_some_iff : storeAll tree files = some next ↔ StoresEach tree files next := by
  constructor
  · intro h
    induction files generalizing tree with
    | nil =>
        obtain rfl := Option.some.inj h
        exact .nil _
    | cons file files ih =>
        rw [storeAll] at h
        split at h
        · rename_i middle hFile
          exact .cons hFile (ih h)
        · cases h
  · intro h
    induction h with
    | nil => rfl
    | cons hFile _ ih =>
        rw [storeAll, hFile]
        exact ih

/-- Whether a path leads to a place. -/
def leadsTo (tree : FileTree) (path : String) (place : Place) : Bool :=
  match tree.resolve path with
  | .ok found => found = place
  | .error _ => false

theorem leadsTo_iff {path : String} :
    leadsTo tree path place = true ↔ tree.resolve path = .ok place := by
  unfold leadsTo
  cases tree.resolve path <;> simp

/-- The text of the last of some files whose path leads to a place. -/
def textAt (tree : FileTree) (files : List (String × String)) (place : Place) : Option String :=
  (files.reverse.find? fun file => leadsTo tree file.1 place).map Prod.snd

theorem textAt_cons (tree : FileTree) (file : String × String) (files : List (String × String))
    (place : Place) :
    textAt tree (file :: files) place =
      (textAt tree files place).or
        (if leadsTo tree file.1 place then some file.2 else none) := by
  unfold textAt
  rw [List.reverse_cons, List.find?_append]
  cases files.reverse.find? fun file => leadsTo tree file.1 place with
  | some last => rfl
  | none => cases hPlace : leadsTo tree file.1 place <;> simp [hPlace]

/-- Only a file whose path leads to a place gives it its text. -/
theorem exists_of_textAt {text : String} (h : textAt tree files place = some text) :
    ∃ file ∈ files, tree.resolve file.1 = .ok place ∧ file.2 = text := by
  obtain ⟨file, hFind, rfl⟩ := Option.map_eq_some_iff.1 h
  have hLeads : leadsTo tree file.1 place = true := by simpa using List.find?_some hFind
  exact ⟨file, List.mem_reverse.1 (List.mem_of_find?_eq_some hFind), leadsTo_iff.1 hLeads, rfl⟩

theorem textAt_isSome (hFile : file ∈ files) (hPlace : tree.resolve file.1 = .ok place) :
    ∃ text, textAt tree files place = some text := by
  have hFound : (files.reverse.find? fun file => leadsTo tree file.1 place).isSome = true :=
    List.find?_isSome.2 ⟨file, List.mem_reverse.2 hFile, leadsTo_iff.2 hPlace⟩
  obtain ⟨last, hLast⟩ := Option.isSome_iff_exists.1 hFound
  exact ⟨last.2, by rw [textAt, hLast]; rfl⟩

theorem entry_of_resolve {path : String} {found : Entry} (hPlace : tree.resolve path = .ok place)
    (hFound : tree.lookup place = some found) : tree.entry path = .ok found := by
  simp only [entry, hPlace, bind, Except.bind, hFound]
  rfl

/-- A path is read by the place that it leads to. -/
theorem read_of_resolve {path text : String} (hPlace : tree.resolve path = .ok place)
    (hText : tree.lookup place = some (.file text)) : tree.read path = .ok text := by
  rw [read, entry_of_resolve hPlace hText]

theorem resolve_of_read {path text : String} (h : tree.read path = .ok text) :
    ∃ place, tree.resolve path = .ok place ∧ tree.lookup place = some (.file text) := by
  unfold read at h
  split at h
  · rename_i content hEntry
    cases h
    obtain ⟨place, hPlace, hRest⟩ := exists_of_bind_eq_ok hEntry
    refine ⟨place, hPlace, ?_⟩
    split at hRest
    · rename_i found hFound
      cases hRest
      exact hFound
    · cases hRest
  · cases h
  · cases h

theorem kind?_of_read {path text : String} (h : tree.read path = .ok text) :
    tree.kind? path = some .file := by
  obtain ⟨place, hPlace, hText⟩ := resolve_of_read h
  rw [kind?, entry_of_resolve hPlace hText]
  rfl

namespace StoresEach

theorem grows (h : StoresEach tree files next) : Grows tree next := by
  induction h with
  | nil tree => exact .refl tree
  | cons hFile _ ih =>
      rcases writeFile_cases hFile with ⟨fault, hFault, -⟩ | ⟨-, place, hStores⟩
      · cases hFault
      · exact hStores.grows.trans ih

theorem append {first second : List (String × String)} (hFirst : StoresEach tree first middle)
    (hSecond : StoresEach middle second next) : StoresEach tree (first ++ second) next := by
  induction hFirst with
  | nil => exact hSecond
  | cons hFile _ ih => exact .cons hFile (ih hSecond)

/-- Storing gives one tree. -/
theorem eq (hFirst : StoresEach tree files middle) (hSecond : StoresEach tree files next) :
    middle = next := by
  induction hFirst with
  | nil =>
      cases hSecond
      rfl
  | cons hFile _ ih =>
      cases hSecond with
      | cons hOther hRest =>
          obtain rfl : _ = _ := congrArg Prod.snd (hFile.symm.trans hOther)
          exact ih hRest

/-- Files that are stored in the end are all stored on the way. -/
theorem of_append {first second : List (String × String)}
    (h : StoresEach tree (first ++ second) next) :
    ∃ middle, StoresEach tree first middle ∧ StoresEach middle second next := by
  induction first generalizing tree with
  | nil => exact ⟨tree, .nil tree, h⟩
  | cons file first ih =>
      cases h with
      | cons hFile hRest =>
          obtain ⟨middle, hFirst, hSecond⟩ := ih hRest
          exact ⟨middle, .cons hFile hFirst, hSecond⟩

/-- Every stored file has a place. -/
theorem resolve (h : StoresEach tree files next) :
    ∀ file ∈ files, ∃ place, next.resolve file.1 = .ok place := by
  induction h with
  | nil => exact fun _ hMem => absurd hMem List.not_mem_nil
  | cons hFile hRest ih =>
      refine List.forall_mem_cons.2 ⟨?_, ih⟩
      rcases writeFile_cases hFile with ⟨fault, hFault, -⟩ | ⟨-, place, hStores⟩
      · cases hFault
      · exact ⟨place, resolve_of_grows hRest.grows hStores.resolve⟩

/-- After files were stored the text of a file is that of the last one whose path leads there, or
else the one that was there before. -/
theorem text_iff (h : StoresEach tree files next) (place : Place) (text : String) :
    next.lookup place = some (.file text) ↔ textAt next files place = some text ∨
      textAt next files place = none ∧ tree.lookup place = some (.file text) := by
  induction h with
  | nil tree => simp [textAt]
  | @cons tree middle next file files hFile hRest ih =>
      rcases writeFile_cases hFile with ⟨fault, hFault, -⟩ | ⟨-, own, hStores⟩
      · cases hFault
      · have hOwn : next.resolve file.1 = .ok own := resolve_of_grows hRest.grows hStores.resolve
        rw [ih, textAt_cons]
        cases textAt next files place with
        | some last => simp
        | none =>
            by_cases hPlace : place = own
            · subst hPlace
              simp [leadsTo, hOwn, hStores.lookup]
            · have hOther : ¬ own = place := fun hSame => hPlace hSame.symm
              simp [leadsTo, hOwn, hOther, hStores.other place text hPlace]

/-- Every stored file is read back with its own text exactly when files that meet at one place have
one text. -/
theorem read_all_iff (h : StoresEach tree files next) :
    (∀ file ∈ files, next.read file.1 = .ok file.2) ↔
      ∀ first ∈ files, ∀ second ∈ files, next.resolve first.1 = next.resolve second.1 →
        first.2 = second.2 := by
  constructor
  · intro hRead first hFirst second hSecond hMeet
    obtain ⟨place, hPlace, hText⟩ := resolve_of_read (hRead first hFirst)
    exact Except.ok.inj ((read_of_resolve (hMeet ▸ hPlace) hText).symm.trans (hRead second hSecond))
  · intro hMeet file hFile
    obtain ⟨place, hPlace⟩ := h.resolve file hFile
    obtain ⟨text, hText⟩ := textAt_isSome hFile hPlace
    obtain ⟨last, hLast, hSame, rfl⟩ := exists_of_textAt hText
    rw [hMeet file hFile last hLast (hPlace.trans hSame.symm)]
    exact read_of_resolve hPlace ((h.text_iff place last.2).2 (.inl hText))

end StoresEach

end PagePress.Cli.FileTree
