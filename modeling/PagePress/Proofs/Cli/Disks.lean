import PagePress.Cli.Run
import PagePress.Proofs.Cli.Trees

/-!
# Commands on disks that act as trees

A command knows its disk through six operations. A disk acts as a file tree when each of them does
what it does on a tree, seen through a view of the state of the disk as a tree; its random numbers
are its own, and so is the order in which it walks through a folder. What a command does to such a
disk is then what it does to the tree.

## Main results

* `ActsAs.writeFile` — storing a file with its folders is seen as that on the tree.
* `runOn_bind_of_ok`, `runOn_ask` — the steps of a command on a disk with a state.
* `runOn_readFile` — reading a file that is there.
-/

namespace PagePress.Cli

/-! ## Views -/

section

variable {σ α β : Type} {view : σ → FileTree}

/-- A step is seen as a step on a tree: with the same result, and the view after it is the tree
after that. -/
def Shows (view : σ → FileTree) (step : StateM σ α) (model : StateM FileTree α) : Prop :=
  ∀ state, Prod.map id view (step.run state) = model.run (view state)

theorem Shows.pure (value : α) : Shows view (Pure.pure value) (Pure.pure value) := fun _ => rfl

theorem Shows.bind {first : StateM σ α} {firstModel : StateM FileTree α} {second : α → StateM σ β}
    {secondModel : α → StateM FileTree β} (hFirst : Shows view first firstModel)
    (hSecond : ∀ value, Shows view (second value) (secondModel value)) :
    Shows view (first >>= second) (firstModel >>= secondModel) := by
  intro state
  have hStart := hFirst state
  show Prod.map id view ((second (first.run state).1).run (first.run state).2) =
    (secondModel (firstModel.run (view state)).1).run (firstModel.run (view state)).2
  rw [← hStart]
  exact hSecond _ _

/-- What a step gives on a tree it gives on what is seen as that tree. -/
theorem Shows.exists_run {step : StateM σ α} {model : StateM FileTree α} (h : Shows view step model)
    {state : σ} {value : α} {next : FileTree} (hRun : model.run (view state) = (value, next)) :
    ∃ after, step.run state = (value, after) ∧ view after = next := by
  have hBoth := (h state).trans hRun
  obtain ⟨hValue, hView⟩ := Prod.ext_iff.1 hBoth
  exact ⟨(step.run state : α × σ).2, Prod.ext hValue rfl, hView⟩

end

/-- A disk acts as a tree. -/
structure ActsAs {σ : Type} (disk : Disk (StateM σ)) (view : σ → FileTree) : Prop where
  kind? : ∀ path, Shows view (disk.kind? path) (FileTree.disk.kind? path)
  read : ∀ path, Shows view (disk.read path) (FileTree.disk.read path)
  write : ∀ path content, Shows view (disk.write path content) (FileTree.disk.write path content)
  makeFolder : ∀ path, Shows view (disk.makeFolder path) (FileTree.disk.makeFolder path)
  /-- The files below a folder may be visited in any order. -/
  filesBelow : ∀ path state, ((disk.filesBelow path).run state : _ × σ).1.Perm
      ((view state).filesBelow path) ∧
    view ((disk.filesBelow path).run state : _ × σ).2 = view state
  random : ∀ count state, view ((disk.random count).run state : _ × σ).2 = view state

/-- A tree acts as itself. -/
theorem actsAs_tree : ActsAs FileTree.disk id where
  kind? _ _ := rfl
  read _ _ := rfl
  write _ _ _ := rfl
  makeFolder _ _ := rfl
  filesBelow _ _ := ⟨.refl _, rfl⟩
  random _ _ := rfl

namespace ActsAs

variable {σ : Type} {disk : Disk (StateM σ)} {view : σ → FileTree}

theorem makeFolders (h : ActsAs disk view) (paths : List String) :
    Shows view (disk.makeFolders paths) (FileTree.disk.makeFolders paths) := by
  have hUnless : ∀ path fault,
      Shows view (disk.unlessFolder path fault) (FileTree.disk.unlessFolder path fault) :=
    fun path fault => (h.kind? path).bind fun found => by
      split <;> exact .pure _
  induction paths with
  | nil => exact .pure _
  | cons path above ih =>
      rw [Disk.makeFolders, Disk.makeFolders]
      split
      · exact .pure _
      · refine (h.makeFolder path).bind fun made => ?_
        split
        · exact .pure _
        · refine ih.bind fun below => ?_
          split
          · exact .pure _
          · refine (h.makeFolder path).bind fun again => ?_
            split
            · exact .pure _
            · exact hUnless path _
        · exact hUnless path _

/-- Storing a file with its folders is seen as that. -/
theorem writeFile (h : ActsAs disk view) (path content : String) :
    Shows view (disk.writeFile path content) (FileTree.disk.writeFile path content) := by
  rw [Disk.writeFile, Disk.writeFile]
  split
  · exact h.write path content
  · refine (h.makeFolders _).bind fun made => ?_
    split
    · exact .pure _
    · exact h.write path content

end ActsAs

/-! ## Running commands -/

section

variable {σ α β : Type} {report between : Report} {state middle : σ}

/-- What a step of a command gives on a disk with a state, and the report and the state after it. -/
def Step.runOn (step : Step (StateM σ) α) (report : Report) (state : σ) :
    (Except Unit α × Report) × σ :=
  (step.run.run report).run state

namespace Step

theorem runOn_pure (value : α) (report : Report) (state : σ) :
    (pure value : Step (StateM σ) α).runOn report state = ((.ok value, report), state) := rfl

theorem runOn_bind (first : Step (StateM σ) α) (second : α → Step (StateM σ) β) (report : Report)
    (state : σ) :
    (first >>= second).runOn report state =
      match first.runOn report state with
      | ((.ok value, between), middle) => (second value).runOn between middle
      | ((.error (), between), middle) => ((.error (), between), middle) := by
  simp only [runOn, ExceptT.run, bind, ExceptT.bind, ExceptT.mk, StateT.run, StateT.bind,
    ExceptT.bindCont]
  rcases first report state with ⟨⟨result, between⟩, middle⟩
  cases result <;> rfl

theorem runOn_bind_of_ok {first : Step (StateM σ) α} {second : α → Step (StateM σ) β} {value : α}
    (h : first.runOn report state = ((.ok value, between), middle)) :
    (first >>= second).runOn report state = (second value).runOn between middle := by
  rw [runOn_bind, h]

theorem runOn_ask (question : StateM σ α) (report : Report) (state : σ) :
    (ask question).runOn report state =
      ((.ok (question.run state : α × σ).1, report), (question.run state : α × σ).2) := rfl

theorem runOn_ask_of_run {question : StateM σ α} {value : α} {report : Report} {state after : σ}
    (h : question.run state = (value, after)) :
    (ask question).runOn report state = ((.ok value, report), after) := by
  rw [runOn_ask, h]

theorem runOn_tell (line : Line) (report : Report) (state : σ) :
    (tell line : Step (StateM σ) Unit).runOn report state =
      ((.ok (), { report with lines := report.lines ++ [line] }), state) := rfl

end Step

/-- A file that can be read is read, and that changes nothing. -/
theorem runOn_readFile {disk : Disk (StateM σ)} {view : σ → FileTree} {path text : String}
    (hDisk : ActsAs disk view) (hRead : (view state).read path = .ok text) (context : String)
    (report : Report) :
    ∃ after, (readFile disk path context).runOn report state = ((.ok text, report), after) ∧
      view after = view state := by
  have hTree : (FileTree.disk.read path).run (view state) = (.ok text, view state) :=
    congrArg (fun found => (found, view state)) hRead
  obtain ⟨after, hRun, hAfter⟩ := (hDisk.read path).exists_run hTree
  refine ⟨after, ?_, hAfter⟩
  rw [readFile, Step.runOn_bind_of_ok (Step.runOn_ask_of_run hRun)]
  rfl

end

end PagePress.Cli
