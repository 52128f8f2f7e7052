import PagePress.Cli.FileTree
import PagePress.Proofs.Steps

/-!
# What storing a file does to a tree

A file is stored in two steps, the folders of its path and then the file, and either may fail. In
both a tree only grows: folders stay folders and files stay files, so every path that led somewhere
leads there still. The text of a file changes at one place only, the one that the path of the stored
file leads to afterwards.

## Main results

* `resolve_of_grows` — a path leads to the same place in a tree that has grown.
* `writeFile_cases` — storing a file adds folders, and when it succeeds the file after that.
* `write_stores` — the file is where its path leads, and no other text has changed.
-/

namespace PagePress.Cli.FileTree

variable {tree next last : FileTree} {place other : Place} {path content : String}

/-! ## Entries -/

theorem lookup_map_of_ne {entries : List (Place × Entry)} (entry : Entry) (h : other ≠ place) :
    (entries.map fun old => if old.1 = place then (place, entry) else old).lookup other =
      entries.lookup other := by
  have hOther : (other == place) = false := by simpa using h
  induction entries with
  | nil => rfl
  | cons old rest ih =>
      rw [List.map_cons]
      split
      · rename_i hPlace
        rw [List.lookup_cons, List.lookup_cons, hPlace, hOther, ih]
      · rw [List.lookup_cons, List.lookup_cons, ih]

theorem lookup_insert_of_ne (tree : FileTree) (entry : Entry) (h : other ≠ place) :
    (tree.insert place entry).lookup other = tree.lookup other := by
  have hOther : (other == place) = false := by simpa using h
  have hEntries : (tree.insert place entry).entries.lookup other = tree.entries.lookup other := by
    unfold insert
    split
    · exact lookup_map_of_ne entry h
    · rw [List.lookup_append, List.lookup_cons, hOther, List.lookup_nil, Option.or_none]
  rw [lookup, lookup, hEntries]

theorem working_insert (tree : FileTree) (place : Place) (entry : Entry) :
    (tree.insert place entry).working = tree.working := by
  unfold insert
  split <;> rfl

/-! ## Trees that grow -/

/-- Every entry stays, a folder as a folder and a file as a file. -/
structure Grows (tree next : FileTree) : Prop where
  working : next.working = tree.working
  kind : ∀ place entry, tree.lookup place = some entry →
    ∃ other, next.lookup place = some other ∧ other.kind = entry.kind

namespace Grows

theorem refl (tree : FileTree) : Grows tree tree :=
  ⟨rfl, fun _ entry h => ⟨entry, h, rfl⟩⟩

theorem trans (hFirst : Grows tree next) (hSecond : Grows next last) : Grows tree last := by
  refine ⟨hSecond.working.trans hFirst.working, fun place entry h => ?_⟩
  obtain ⟨middle, hMiddle, hKind⟩ := hFirst.kind place entry h
  obtain ⟨other, hOther, hLast⟩ := hSecond.kind place middle hMiddle
  exact ⟨other, hOther, hLast.trans hKind⟩

theorem folder (h : Grows tree next) (hFolder : tree.lookup place = some .folder) :
    next.lookup place = some .folder := by
  obtain ⟨other, hOther, hKind⟩ := h.kind place .folder hFolder
  cases other with
  | file content => cases hKind
  | folder => exact hOther

theorem isSome (h : Grows tree next) (hSome : (tree.lookup place).isSome = true) :
    (next.lookup place).isSome = true := by
  obtain ⟨entry, hEntry⟩ := Option.isSome_iff_exists.1 hSome
  obtain ⟨other, hOther, -⟩ := h.kind place entry hEntry
  exact Option.isSome_iff_exists.2 ⟨other, hOther⟩

/-- A tree grows by an entry that takes the place of nothing or of one of its kind. -/
theorem insert {entry : Entry} (hPlace : place ≠ [])
    (h : ∀ old, tree.lookup place = some old → entry.kind = old.kind) :
    Grows tree (tree.insert place entry) := by
  refine ⟨working_insert tree place entry, fun other old hOld => ?_⟩
  by_cases hSame : other = place
  · subst hSame
    exact ⟨entry, lookup_insert tree entry hPlace, h old hOld⟩
  · exact ⟨old, (lookup_insert_of_ne tree entry hSame).trans hOld, rfl⟩

end Grows

/-! ## Following paths -/

theorem follow_cons (tree : FileTree) (place : Place) (name : String) (rest : List String) :
    tree.follow place (name :: rest) = tree.step place name >>= fun middle =>
      tree.follow middle rest := rfl

theorem follow_append (tree : FileTree) (place : Place) (first second : List String) :
    tree.follow place (first ++ second) =
      tree.follow place first >>= fun middle => tree.follow middle second := by
  induction first generalizing place with
  | nil => rfl
  | cons name first ih =>
      rw [List.cons_append, follow_cons, follow_cons]
      cases tree.step place name with
      | error fault => rfl
      | ok middle => exact ih middle

/-- A name that leads to an entry of that name: it is not empty, and neither a dot nor a double
dot. -/
def IsPlain (name : String) : Prop := name ≠ "" ∧ name ≠ "." ∧ name ≠ ".."

instance (name : String) : Decidable (IsPlain name) :=
  inferInstanceAs (Decidable (_ ∧ _ ∧ _))

/-- A name that a file or a folder can have. -/
structure IsName (name : String) : Prop where
  plain : IsPlain name
  short : ¬ nameLimit < name.utf8ByteSize

/-- One step from a folder: an empty name and a dot stay, a double dot goes up, and any other name
leads to an entry. -/
theorem step_eq_ok_iff {name : String} :
    tree.step place name = .ok other ↔ tree.lookup place = some .folder ∧
      ((name = "" ∨ name = ".") ∧ place = other ∨ name = ".." ∧ place.dropLast = other ∨
        IsName name ∧ place ++ [name] = other ∧ (tree.lookup (place ++ [name])).isSome = true) := by
  by_cases hFolder : tree.lookup place = some .folder
  · rw [and_iff_right hFolder]
    by_cases hStay : name = "" ∨ name = "."
    · have hUp : name ≠ ".." := by
        rintro rfl
        exact absurd hStay (by decide)
      have hName : ¬ IsName name := fun h => hStay.elim h.plain.1 h.plain.2.1
      simp [step, hFolder, hStay, hUp, hName]
    · by_cases hUp : name = ".."
      · have hName : ¬ IsName name := fun h => h.plain.2.2 hUp
        simp [step, hFolder, hUp, hUp ▸ hName]
      · have hPlain : name ≠ "" ∧ name ≠ "." := not_or.1 hStay
        have hName : IsName name ↔ ¬ nameLimit < name.utf8ByteSize :=
          ⟨IsName.short, fun h => ⟨⟨hPlain.1, hPlain.2, hUp⟩, h⟩⟩
        by_cases hLong : nameLimit < name.utf8ByteSize
        · simp [step, hFolder, hPlain, hUp, hName, hLong]
        · by_cases hSome : (tree.lookup (place ++ [name])).isSome = true
          · simp [step, hFolder, hPlain, hUp, hName, hLong, hSome]
          · simp [step, hFolder, hPlain, hUp, hLong, hSome]
  · exact iff_of_false (by simp [step, hFolder]) fun h => hFolder h.1

theorem step_of_grows (h : Grows tree next) {name : String}
    (hStep : tree.step place name = .ok other) : next.step place name = .ok other := by
  rw [step_eq_ok_iff] at hStep ⊢
  obtain ⟨hFolder, hOther⟩ := hStep
  refine ⟨h.folder hFolder, ?_⟩
  rcases hOther with hStay | hUp | ⟨hName, hPlace, hSome⟩
  · exact .inl hStay
  · exact .inr (.inl hUp)
  · exact .inr (.inr ⟨hName, hPlace, h.isSome hSome⟩)

/-- What was reached is reached after a tree has grown. -/
theorem follow_of_grows (h : Grows tree next) {names : List String}
    (hFollow : tree.follow place names = .ok other) : next.follow place names = .ok other := by
  induction names generalizing place with
  | nil => exact hFollow
  | cons name rest ih =>
      rw [follow_cons] at hFollow ⊢
      cases hStep : tree.step place name with
      | error fault =>
          rw [hStep] at hFollow
          cases hFollow
      | ok middle =>
          rw [hStep] at hFollow
          rw [step_of_grows h hStep]
          exact ih hFollow

theorem start_of_grows (h : Grows tree next) (path : String) :
    next.start path = tree.start path := by
  rw [start, start, h.working]

/-- A path leads to the same place in a tree that has grown. -/
theorem resolve_of_grows (h : Grows tree next) (hResolve : tree.resolve path = .ok place) :
    next.resolve path = .ok place := by
  unfold resolve at hResolve ⊢
  cases hCheck : checkPath path with
  | error fault =>
      rw [hCheck] at hResolve
      cases hResolve
  | ok _ =>
      rw [hCheck] at hResolve
      rw [start_of_grows h]
      exact follow_of_grows h hResolve

/-- Without double dots among them names lead down. -/
theorem prefix_of_follow {names : List String} (hUp : ".." ∉ names)
    (h : tree.follow place names = .ok other) : place <+: other := by
  induction names generalizing place with
  | nil =>
      cases h
      exact List.prefix_rfl
  | cons name rest ih =>
      obtain ⟨hName, hRest⟩ := not_or.1 fun hOr => hUp (List.mem_cons.2 hOr)
      rw [follow_cons] at h
      obtain ⟨middle, hStep, hFollow⟩ := exists_of_bind_eq_ok h
      have hDown : place <+: middle := by
        obtain ⟨-, ⟨-, rfl⟩ | ⟨rfl, -⟩ | ⟨-, rfl, -⟩⟩ := step_eq_ok_iff.1 hStep
        · exact List.prefix_rfl
        · exact absurd rfl hName
        · exact List.prefix_append _ _
      exact hDown.trans (ih hRest hFollow)

/-- Plain names lead to the entry below that has them. -/
theorem follow_plain {names : List String} (hNames : ∀ name ∈ names, IsPlain name)
    (h : tree.follow place names = .ok other) : place ++ names = other := by
  induction names generalizing place with
  | nil =>
      rw [List.append_nil]
      exact Except.ok.inj h
  | cons name rest ih =>
      obtain ⟨hName, hRest⟩ := List.forall_mem_cons.1 hNames
      rw [follow_cons] at h
      obtain ⟨middle, hStep, hFollow⟩ := exists_of_bind_eq_ok h
      have hDown : place ++ [name] = middle := by
        obtain ⟨-, ⟨hStay, -⟩ | ⟨hUp, -⟩ | ⟨-, hDown, -⟩⟩ := step_eq_ok_iff.1 hStep
        · exact absurd hStay (not_or.2 ⟨hName.1, hName.2.1⟩)
        · exact absurd hUp hName.2.2
        · exact hDown
      rw [← ih hRest hFollow, ← hDown, List.append_assoc, List.singleton_append]

/-- The last step of a path. -/
theorem exists_last_step (h : tree.resolve path = .ok place) : ∃ above name folder,
    Text.cutText '/' path = above ++ [name] ∧ tree.follow (tree.start path) above = .ok folder ∧
      tree.step folder name = .ok place := by
  obtain ⟨⟨⟩, -, hFollow⟩ := exists_of_bind_eq_ok h
  have hNames : Text.cutText '/' path ≠ [] := fun hNil =>
    Text.cut_ne_nil '/' path.toList (List.map_eq_nil_iff.1 hNil)
  obtain ⟨above, name, hCut⟩ : ∃ above name, Text.cutText '/' path = above ++ [name] :=
    ⟨_, _, (List.dropLast_concat_getLast hNames).symm⟩
  rw [hCut, follow_append] at hFollow
  obtain ⟨folder, hAbove, hLast⟩ := exists_of_bind_eq_ok hFollow
  rw [follow_cons] at hLast
  obtain ⟨reached, hStep, hEnd⟩ := exists_of_bind_eq_ok hLast
  cases hEnd
  exact ⟨above, name, folder, hCut, hAbove, hStep⟩

/-- A path that leads to a file ends with the name of the file, or with a double dot. -/
theorem last_of_resolve (hPlace : tree.resolve path = .ok place)
    (hFile : tree.lookup place ≠ some .folder) :
    ∃ name, (Text.cutText '/' path).getLast? = some name ∧
      (name = ".." ∨ IsName name ∧ place.getLast? = some name) := by
  obtain ⟨above, name, folder, hCut, -, hStep⟩ := exists_last_step hPlace
  refine ⟨name, by rw [hCut, List.getLast?_concat], ?_⟩
  obtain ⟨hFolder, ⟨-, rfl⟩ | ⟨rfl, -⟩ | ⟨hName, rfl, -⟩⟩ := step_eq_ok_iff.1 hStep
  · exact absurd hFolder hFile
  · exact .inl rfl
  · exact .inr ⟨hName, List.getLast?_concat⟩

/-! ## New entries -/

/-- A new entry is a name in a folder that the names before it lead to. -/
theorem newEntry_eq_some {names : List String} {folder : Place} {name : String}
    (h : tree.newEntry place names = .ok (folder, some name)) :
    ∃ above, names = above ++ [name] ∧ tree.follow place above = .ok folder ∧
      tree.lookup folder = some .folder ∧ IsName name := by
  unfold newEntry at h
  split at h
  · cases h
  · rename_i last hLast
    obtain ⟨reached, hFollow, hRest⟩ := exists_of_bind_eq_ok h
    obtain ⟨above, rfl⟩ := List.getLast?_eq_some_iff.1 hLast
    rw [List.dropLast_concat] at hFollow
    by_cases hFolder : tree.lookup reached = some .folder
    · simp only [hFolder, ne_eq, not_true_eq_false, ↓reduceIte] at hRest
      split at hRest
      · cases hRest
      · rename_i hPlain
        split at hRest
        · cases hRest
        · rename_i hShort
          cases hRest
          refine ⟨above, rfl, hFollow, hFolder, ⟨?_, hShort⟩⟩
          simpa [IsPlain, and_comm, and_left_comm] using hPlain
    · simp only [hFolder, ne_eq, not_false_eq_true, ↓reduceIte] at hRest
      cases hRest

/-! ## Folders -/

/-- A tree has more folders than another one, and nothing else is different. -/
structure AddsFolders (tree next : FileTree) : Prop where
  working : next.working = tree.working
  lookup : ∀ place, next.lookup place = tree.lookup place ∨
    tree.lookup place = none ∧ next.lookup place = some .folder

namespace AddsFolders

theorem refl (tree : FileTree) : AddsFolders tree tree := ⟨rfl, fun _ => .inl rfl⟩

theorem trans (hFirst : AddsFolders tree next) (hSecond : AddsFolders next last) :
    AddsFolders tree last := by
  refine ⟨hSecond.working.trans hFirst.working, fun place => ?_⟩
  rcases hSecond.lookup place with hSame | ⟨hNone, hFolder⟩
  · rw [hSame]
    exact hFirst.lookup place
  · rcases hFirst.lookup place with hOld | ⟨-, hOld⟩
    · exact .inr ⟨hOld.symm.trans hNone, hFolder⟩
    · cases hNone.symm.trans hOld

theorem grows (h : AddsFolders tree next) : Grows tree next := by
  refine ⟨h.working, fun place entry hEntry => ?_⟩
  rcases h.lookup place with hSame | ⟨hNone, -⟩
  · exact ⟨entry, hSame.trans hEntry, rfl⟩
  · cases hNone.symm.trans hEntry

theorem file_iff (h : AddsFolders tree next) (place : Place) (text : String) :
    next.lookup place = some (.file text) ↔ tree.lookup place = some (.file text) := by
  rcases h.lookup place with hSame | ⟨hNone, hFolder⟩
  · rw [hSame]
  · rw [hNone, hFolder]
    exact iff_of_false (by rintro ⟨⟩) (by rintro ⟨⟩)

end AddsFolders

theorem makeFolder_adds (h : tree.makeFolder path = .ok next) : AddsFolders tree next := by
  obtain ⟨⟨⟩, -, hEntry⟩ := exists_of_bind_eq_ok h
  obtain ⟨⟨folder, name?⟩, -, hRest⟩ := exists_of_bind_eq_ok hEntry
  cases name? with
  | none => cases hRest
  | some name =>
      dsimp only at hRest
      split at hRest
      · cases hRest
      · rename_i hNone
        cases hRest
        refine ⟨working_insert tree _ _, fun other => ?_⟩
        by_cases hSame : other = folder ++ [name]
        · subst hSame
          exact .inr ⟨Option.not_isSome_iff_eq_none.1 hNone,
            lookup_insert tree _ (List.concat_ne_nil _ _)⟩
        · exact .inl (lookup_insert_of_ne tree _ hSame)

/-! ## Files -/

/-- A path has all its names when it does not end in a slash. -/
theorem namesOf_eq (path : String) (h : (namesOf path).2 = false) :
    (namesOf path).1 = Text.cutText '/' path := by
  have hSuffix := List.dropWhile_suffix (l := (Text.cutText '/' path).reverse)
    fun name : String => name.isEmpty
  have hLength : (Text.cutText '/' path).length ≤ (namesOf path).1.length :=
    Nat.le_of_not_lt (of_decide_eq_false h)
  have hAll := hSuffix.eq_of_length_le (by simpa [namesOf] using hLength)
  show (List.dropWhile _ _).reverse = _
  rw [hAll, List.reverse_reverse]

/-- A file with a text is at the place that its path leads to, under the last name of the path, and
no other text has changed. -/
structure Stores (tree : FileTree) (path content : String) (place : Place) (next : FileTree) :
    Prop where
  grows : Grows tree next
  resolve : next.resolve path = .ok place
  lookup : next.lookup place = some (.file content)
  name : place.getLast? = (Text.cutText '/' path).getLast?
  other : ∀ other text, other ≠ place →
    (next.lookup other = some (.file text) ↔ tree.lookup other = some (.file text))

/-- A file that was written is where its path leads. -/
theorem write_stores (h : tree.write path content = .ok next) :
    ∃ place, Stores tree path content place next := by
  obtain ⟨⟨⟩, hCheck, hEntry⟩ := exists_of_bind_eq_ok h
  have hPath := namesOf_eq path
  dsimp only at hEntry
  rcases hPair : namesOf path with ⟨names, slashed⟩
  rw [hPair] at hPath hEntry
  obtain ⟨⟨folder, name?⟩, hNew, hRest⟩ := exists_of_bind_eq_ok hEntry
  cases name? with
  | none => cases hRest
  | some name =>
      dsimp only at hRest
      split at hRest
      · cases hRest
      · rename_i hFree
        obtain ⟨hSlash, hFile⟩ : slashed = false ∧
            tree.lookup (folder ++ [name]) ≠ some .folder := by simpa using hFree
        cases hRest
        obtain ⟨above, rfl, hFollow, hFolder, hName⟩ := newEntry_eq_some hNew
        have hNames : above ++ [name] = Text.cutText '/' path := hPath hSlash
        have hGrows : Grows tree (tree.insert (folder ++ [name]) (.file content)) := by
          refine .insert (List.concat_ne_nil _ _) fun old hOld => ?_
          cases old with
          | file text => rfl
          | folder => exact absurd hOld hFile
        have hPlace := lookup_insert tree (.file content) (List.concat_ne_nil name folder)
        refine ⟨folder ++ [name], hGrows, ?_, hPlace, ?_, fun other text hOther => ?_⟩
        · rw [resolve, hCheck]
          show FileTree.follow _ _ _ = _
          rw [start_of_grows hGrows, ← hNames, follow_append, follow_of_grows hGrows hFollow]
          show FileTree.follow _ _ _ = _
          rw [follow_cons, step_eq_ok_iff.2 ⟨hGrows.folder hFolder, .inr (.inr ⟨hName, rfl, ?_⟩)⟩]
          · rfl
          · rw [hPlace]
            rfl
        · rw [← hNames, List.getLast?_concat, List.getLast?_concat]
        · rw [lookup_insert_of_ne tree _ hOther]

/-- Folders that were there before make no difference to what was stored. -/
theorem Stores.after (hAdds : AddsFolders tree next) (h : Stores next path content place last) :
    Stores tree path content place last :=
  ⟨hAdds.grows.trans h.grows, h.resolve, h.lookup, h.name, fun other text hOther =>
    (h.other other text hOther).trans (hAdds.file_iff other text)⟩

/-! ## Storing a file with its folders -/

theorem run_apply_of_ok {change : FileTree → Except DiskFault FileTree}
    (h : change tree = .ok next) : (apply change).run tree = (.ok (), next) := by
  simp only [apply, StateT.run_bind, StateT.run_get, pure_bind, h]
  rfl

theorem run_apply_of_error {change : FileTree → Except DiskFault FileTree} {fault : DiskFault}
    (h : change tree = .error fault) : (apply change).run tree = (.error fault, tree) := by
  simp only [apply, StateT.run_bind, StateT.run_get, pure_bind, h]
  rfl

/-- A step on a tree that does nothing but add folders, whether it fails or not. -/
def Adds {α : Type} (step : StateM FileTree α) : Prop :=
  ∀ tree, AddsFolders tree (step.run tree : α × FileTree).2

namespace Adds

variable {α β : Type}

theorem pure (value : α) : Adds (Pure.pure value) := fun tree => .refl tree

theorem bind {first : StateM FileTree α} {second : α → StateM FileTree β} (hFirst : Adds first)
    (hSecond : ∀ value, Adds (second value)) : Adds (first >>= second) :=
  fun tree => (hFirst tree).trans (hSecond _ _)

theorem kind? (path : String) : Adds (disk.kind? path) := fun tree => .refl tree

theorem makeFolder (path : String) : Adds (disk.makeFolder path) := by
  intro tree
  cases hMade : tree.makeFolder path with
  | error fault =>
      rw [disk, run_apply_of_error hMade]
      exact .refl tree
  | ok next =>
      rw [disk, run_apply_of_ok hMade]
      exact makeFolder_adds hMade

theorem makeFolders (paths : List String) : Adds (disk.makeFolders paths) := by
  induction paths with
  | nil => exact pure _
  | cons path above ih =>
      have hUnless : ∀ fault, Adds (disk.unlessFolder path fault) :=
        fun fault => bind (kind? path) fun found => by
          split <;> exact pure _
      rw [Disk.makeFolders]
      split
      · exact pure _
      · refine bind (makeFolder path) fun made => ?_
        split
        · exact pure _
        · refine bind ih fun below => ?_
          split
          · exact pure _
          · refine bind (makeFolder path) fun again => ?_
            split
            · exact pure _
            · exact hUnless _
        · exact hUnless _

end Adds

/-- Storing a file adds folders, and when it succeeds the file is where its path leads. -/
theorem writeFile_cases {result : Except DiskFault Unit}
    (h : (disk.writeFile path content).run tree = (result, next)) :
    (∃ fault, result = .error fault ∧ AddsFolders tree next) ∨
      result = .ok () ∧ ∃ place, Stores tree path content place next := by
  have hWrite : ∀ middle, AddsFolders tree middle →
      (disk.write path content).run middle = (result, next) →
      (∃ fault, result = .error fault ∧ AddsFolders tree next) ∨
        result = .ok () ∧ ∃ place, Stores tree path content place next := by
    intro middle hAdds hRun
    cases hWritten : middle.write path content with
    | error fault =>
        rw [disk, run_apply_of_error hWritten] at hRun
        cases hRun
        exact .inl ⟨fault, rfl, hAdds⟩
    | ok last =>
        rw [disk, run_apply_of_ok hWritten] at hRun
        cases hRun
        obtain ⟨place, hStores⟩ := write_stores hWritten
        exact .inr ⟨rfl, place, hStores.after hAdds⟩
  rw [Disk.writeFile] at h
  split at h
  · exact hWrite tree (.refl tree) h
  · rename_i folder hFolder
    have hAdds := Adds.makeFolders (Disk.ancestors (folder.length + 1) folder) tree
    rw [StateT.run_bind] at h
    rcases hMade : (disk.makeFolders (Disk.ancestors (folder.length + 1) folder)).run tree with
      ⟨made, middle⟩
    rw [hMade] at h hAdds
    cases made with
    | error fault =>
        cases h
        exact .inl ⟨fault, rfl, hAdds⟩
    | ok _ => exact hWrite middle hAdds h

end PagePress.Cli.FileTree
