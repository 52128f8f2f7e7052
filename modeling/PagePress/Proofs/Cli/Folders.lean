import Mathlib.Data.List.Permutation
import PagePress.Proofs.Cli.Disks
import PagePress.Proofs.Cli.Targets

/-!
# Publishing a folder of documents

The command publishes the documents of a folder one after the other, in the order in which its disk
walks through the folder, each to a folder with the name of the document. When no document and no
file fails, all files of all documents have been stored in the end, and the summary counts them all.
Whether they are all there is another question. A file whose place is that of a file stored later is
lost without a word, and that happens as soon as two documents have one name, as only the names of
documents and not their folders go into the places of files. With one name for each document, and
with paths that have nothing but plain names in them, it does not happen.

## Main results

* `runOn_publishDocuments` — publishing documents stores the files of all of them.
* `same_text_of_resolve` — which files of documents meet at one place.
* `publish_folder` — when every file of every document is on the disk with its own text.
-/

namespace PagePress

open FilePath Cli.FileTree

/-- A pass that gives a publication gives it the files of its draft. -/
theorem Site.publishIn_eq_ok {site : Site} {options : Options} {context : Context}
    {publication : Publication} (h : (site.publishIn options context).1 = .ok publication) :
    (publishPages site.host options site.pages context).1 = none ∧
      publication.files = (publishPages site.host options site.pages context).2.files := by
  unfold Site.publishIn at h
  split at h
  · rename_i draft hPass
    cases h
    rw [hPass]
    exact ⟨rfl, rfl⟩
  · cases h

namespace Cli

variable {σ : Type} {disk : Disk (StateM σ)} {view : σ → FileTree} {options : Options}
  {tree next : FileTree} {path out context text : String} {site : Site} {random : List UInt32}
  {publication : Publication} {report : Report} {state : σ}

theorem FileTree.filesBelow_of_sorted {folder : Place} {places : List Place}
    (hFolder : tree.resolve path = .ok folder)
    (hPlaces : tree.entries.filterMap (fileBelow? folder) = places)
    (hSorted : places.Pairwise fun a b => comesBefore a b = true) :
    tree.filesBelow path = places.map fun names => names.foldl join path := by
  rw [filesBelow, hFolder]
  dsimp only
  rw [hPlaces, List.mergeSort_of_pairwise hSorted]

/-! ## What is published -/

/-- The files of a publication have paths of their own. -/
def OwnPaths (publication : Publication) : Prop :=
  (publication.files.map PublishedFile.path).Nodup

/-- A document is there and is published without an error to files with paths of their own, whatever
the random numbers are. -/
def Publishes (options : Options) (tree : FileTree) (path : String) : Prop :=
  ∃ text site, tree.read path = .ok text ∧ Site.read text = .ok site ∧
    ∀ random, ∃ publication,
      (site.publishIn options (freshContext options random)).1 = .ok publication ∧
        OwnPaths publication

/-- What a document is published to, with some random numbers. -/
def PublishesTo (options : Options) (tree : FileTree) (path : String)
    (publication : Publication) : Prop :=
  ∃ text site random, tree.read path = .ok text ∧ Site.read text = .ok site ∧
    (site.publishIn options (freshContext options random)).1 = .ok publication ∧
      OwnPaths publication

theorem Publishes.exists_publication (h : Publishes options tree path) :
    ∃ publication, PublishesTo options tree path publication := by
  obtain ⟨text, site, hRead, hSite, hPublishes⟩ := h
  obtain ⟨publication, hOk, hOwn⟩ := hPublishes []
  exact ⟨publication, text, site, [], hRead, hSite, hOk, hOwn⟩

/-- Documents with what they are published to. -/
def PublishEach (options : Options) (tree : FileTree) :
    List (String × String) → List Publication → Prop :=
  List.Forall₂ fun document publication => PublishesTo options tree document.1 publication

theorem exists_publishEach {documents : List (String × String)}
    (h : ∀ document ∈ documents, Publishes options tree document.1) :
    ∃ publications, PublishEach options tree documents publications := by
  induction documents with
  | nil => exact ⟨[], .nil⟩
  | cons document documents ih =>
      obtain ⟨hFirst, hRest⟩ := List.forall_mem_cons.1 h
      obtain ⟨publication, hPublication⟩ := hFirst.exists_publication
      obtain ⟨publications, hPublications⟩ := ih hRest
      exact ⟨publication :: publications, .cons hPublication hPublications⟩

/-! ## Where it goes and what is told -/

/-- The files of a publication with the paths that they go to below a folder. -/
def targets (out : String) (publication : Publication) : List (String × String) :=
  publication.files.map fun file => (target out file.path, file.content)

/-- The files of all documents with the paths that they go to. -/
def allTargets (out : String) (documents : List (String × String))
    (publications : List Publication) : List (String × String) :=
  (documents.zip publications).flatMap fun pair => targets (join out pair.1.2) pair.2

theorem allTargets_cons (out : String) (document : String × String)
    (documents : List (String × String)) (publication : Publication)
    (publications : List Publication) :
    allTargets out (document :: documents) (publication :: publications) =
      targets (join out document.2) publication ++ allTargets out documents publications :=
  List.flatMap_cons

theorem mem_allTargets {documents : List (String × String)} {publications : List Publication}
    {file : String × String} : file ∈ allTargets out documents publications ↔
      ∃ pair ∈ documents.zip publications, ∃ published ∈ pair.2.files,
        (target (join out pair.1.2) published.path, published.content) = file := by
  simp only [allTargets, targets, List.mem_flatMap, List.mem_map]

/-- What is told about a publication. -/
def told (out : String) (publication : Publication) : List Line :=
  publication.notices.map .notice ++
    publication.files.map fun file => .wrote (target out file.path)

/-- What is told about the publications of all documents. -/
def allTold (out : String) (documents : List (String × String)) (publications : List Publication) :
    List Line :=
  (documents.zip publications).flatMap fun pair => told (join out pair.1.2) pair.2

/-- Files of a publication go to paths that end like their own. -/
theorem isPublishedName_of_publishIn
    (h : (site.publishIn options (freshContext options random)).1 = .ok publication)
    (out : String) :
    ∀ file ∈ targets out publication, IsPublishedName file.1 := by
  intro file hFile
  obtain ⟨published, hPublished, rfl⟩ := List.mem_map.1 hFile
  rw [(Site.publishIn_eq_ok h).2] at hPublished
  exact isPublishedName_target
    (publishPages_isPageFile site.host options site.pages _ published hPublished) out

/-! ## One document -/

/-- A report with more lines. -/
def Report.tells (report : Report) (lines : List Line) : Report :=
  { report with lines := report.lines ++ lines }

theorem Report.tells_tells (report : Report) (first second : List Line) :
    (report.tells first).tells second = report.tells (first ++ second) := by
  simp [Report.tells]

theorem runOn_tellNotices (notices : List Notice) (report : Report) (state : σ) :
    (tellNotices notices : Step (StateM σ) Unit).runOn report state =
      ((.ok (), report.tells (notices.map .notice)), state) := by
  induction notices generalizing report with
  | nil => simp [tellNotices, Step.runOn_pure, Report.tells]
  | cons notice notices ih =>
      have hFirst : (tell (.notice notice) : Step (StateM σ) Unit).runOn report state =
          ((.ok (), report.tells [.notice notice]), state) := Step.runOn_tell _ report state
      rw [tellNotices, Step.runOn_bind_of_ok hFirst, ih, Report.tells_tells]
      rfl

theorem runOn_orStop {α : Type} (context : String) (result : Except PublishError α)
    (report : Report)
    (state : σ) : (orStop context result : Step (StateM σ) α).runOn report state =
      match result with
      | .ok value => ((.ok value, report), state)
      | .error error => ((.error (), report.tells [.failure error context]), state) := by
  cases result <;> rfl

/-- The site in the text of a document. -/
def siteIn (text : String) : Except PublishError Site :=
  (Site.read text).mapError .malformed

/-- Reading a document changes nothing, and fails when it cannot be decoded. -/
theorem runOn_readSite_eq (hDisk : ActsAs disk view) (hRead : (view state).read path = .ok text)
    (report : Report) :
    ∃ after, (readSite disk path).runOn report state =
        (orStop path (siteIn text)).runOn report after ∧ view after = view state := by
  obtain ⟨after, hRun, hAfter⟩ := runOn_readFile hDisk hRead path report
  refine ⟨after, ?_, hAfter⟩
  rw [readSite, Step.runOn_bind_of_ok hRun, siteIn]
  cases Site.read text <;> rfl

/-- A document that can be read is read. -/
theorem runOn_readSite (hDisk : ActsAs disk view) (hRead : (view state).read path = .ok text)
    (hSite : Site.read text = .ok site) (report : Report) :
    ∃ after, (readSite disk path).runOn report state = ((.ok site, report), after) ∧
      view after = view state := by
  obtain ⟨after, hRun, hAfter⟩ := runOn_readSite_eq hDisk hRead report
  rw [siteIn, hSite] at hRun
  exact ⟨after, hRun, hAfter⟩

/-- Files that can be stored are stored, and each is told. -/
theorem runOn_writeFiles (hDisk : ActsAs disk view) (out context : String)
    (files : List PublishedFile) {state : σ} (report : Report)
    (h : StoresEach (view state) (files.map fun file => (target out file.path, file.content))
      next) :
    ∃ after, (writeFiles disk out context files).runOn report state =
        ((.ok (), report.tells (files.map fun file => .wrote (target out file.path))), after) ∧
      view after = next := by
  induction files generalizing state report with
  | nil =>
      refine ⟨state, ?_, storesEach_nil_iff.1 h⟩
      simp [writeFiles, Step.runOn_pure, Report.tells]
  | cons file files ih =>
      rw [List.map_cons] at h
      obtain ⟨middle, hFile, hRest⟩ := storesEach_cons_iff.1 h
      obtain ⟨between, hRun, rfl⟩ := (hDisk.writeFile _ _).exists_run hFile
      have hTell :
          (tell (.wrote (target out file.path)) : Step (StateM σ) Unit).runOn report between =
          ((.ok (), report.tells [.wrote (target out file.path)]), between) :=
        Step.runOn_tell _ report between
      obtain ⟨after, hOthers, hAfter⟩ := ih (report.tells [.wrote (target out file.path)]) hRest
      rw [Report.tells_tells] at hOthers
      refine ⟨after, ?_, hAfter⟩
      rw [writeFiles, Step.runOn_bind_of_ok (Step.runOn_ask_of_run hRun)]
      dsimp only
      rw [Step.runOn_bind_of_ok hTell, hOthers]
      rfl

/-- A document that is published without an error, and whose files can be stored, is published and
its files are stored. -/
theorem runOn_publishDocument (hDisk : ActsAs disk view) (out : String)
    (hPublishes : Publishes options (view state) path)
    (hAccepts : ∀ publication, PublishesTo options (view state) path publication →
      ∃ next, StoresEach (view state) (targets out publication) next) (report : Report) :
    ∃ publication after, PublishesTo options (view state) path publication ∧
      (publishDocument disk options path out false).runOn report state =
        ((.ok publication.files.length, report.tells (told out publication)), after) ∧
      StoresEach (view state) (targets out publication) (view after) ∧
      ∀ file ∈ targets out publication, IsPublishedName file.1 := by
  obtain ⟨text, site, hRead, hSite, hRandom⟩ := hPublishes
  obtain ⟨between, hRunSite, hBetween⟩ := runOn_readSite hDisk hRead hSite report
  have hView := hDisk.random (randomNeed site) between
  rcases hNumbers : ((disk.random (randomNeed site)).run between : _ × σ) with ⟨random, now⟩
  rw [hNumbers] at hView
  obtain ⟨publication, hOk, hOwn⟩ := hRandom random
  have hTo : PublishesTo options (view state) path publication :=
    ⟨text, site, random, hRead, hSite, hOk, hOwn⟩
  obtain ⟨next, hStores⟩ := hAccepts publication hTo
  rw [← hBetween, ← hView] at hStores
  obtain ⟨after, hWritten, rfl⟩ := runOn_writeFiles hDisk out path publication.files
    (report.tells (publication.notices.map .notice)) hStores
  refine ⟨publication, after, hTo, ?_, ?_, isPublishedName_of_publishIn hOk out⟩
  · have hResult : (orStop path (.ok publication) : Step (StateM σ) Publication).runOn report now =
        ((.ok publication, report), now) := rfl
    rw [publishDocument, Step.runOn_bind_of_ok hRunSite,
      Step.runOn_bind_of_ok (Step.runOn_ask_of_run hNumbers), hOk, Step.runOn_bind_of_ok hResult,
      Step.runOn_bind_of_ok (runOn_tellNotices publication.notices report now)]
    simp only [Bool.false_eq_true, if_false]
    rw [Step.runOn_bind_of_ok hWritten, Report.tells_tells]
    rfl
  · rwa [← hBetween, ← hView]

/-! ## All documents -/

theorem siteStem?_of_siteDocuments {paths : List String} {document : String × String}
    (h : document ∈ siteDocuments paths) : siteStem? document.1 = some document.2 := by
  obtain ⟨path, -, hSome⟩ := List.mem_filterMap.1 h
  obtain ⟨stem, hStem, rfl⟩ := Option.map_eq_some_iff.1 hSome
  exact hStem

/-- Documents that are published without an error, and whose files can be stored one after the
other, are published and their files are stored, each document as it was at the start. -/
theorem runOn_publishDocuments (hDisk : ActsAs disk view) (out : String)
    (documents : List (String × String)) {state : σ} (report : Report)
    (hKeeps : KeepsDocuments tree (view state))
    (hNamed : ∀ document ∈ documents, siteStem? document.1 = some document.2)
    (hPublishes : ∀ document ∈ documents, Publishes options tree document.1)
    (hAccepts : ∀ publications, PublishEach options tree documents publications →
      ∃ next, StoresEach (view state) (allTargets out documents publications) next) :
    ∃ publications after, PublishEach options tree documents publications ∧
      (publishDocuments disk options out false documents).runOn report state =
        ((.ok (allTargets out documents publications).length,
          report.tells (allTold out documents publications)), after) ∧
      StoresEach (view state) (allTargets out documents publications) (view after) := by
  induction documents generalizing state report with
  | nil =>
      refine ⟨[], state, .nil, ?_, .nil _⟩
      simp [publishDocuments, Step.runOn_pure, Report.tells, allTargets, allTold]
  | cons document documents ih =>
      obtain ⟨hOwnName, hNames⟩ := List.forall_mem_cons.1 hNamed
      obtain ⟨⟨text, site, hRead, hSite, hRandom⟩, hOthers⟩ := List.forall_mem_cons.1 hPublishes
      have hNow := hKeeps.read hOwnName hRead
      have hOwn : ∀ publication, PublishesTo options (view state) document.1 publication →
          PublishesTo options tree document.1 publication := by
        rintro publication ⟨other, otherSite, random, hOther, hRest⟩
        obtain rfl : text = other := Except.ok.inj (hNow.symm.trans hOther)
        exact ⟨text, otherSite, random, hRead, hRest⟩
      have hSplit : ∀ publication publications,
          PublishesTo options (view state) document.1 publication →
          PublishEach options tree documents publications → ∃ middle next,
            StoresEach (view state) (targets (join out document.2) publication) middle ∧
              StoresEach middle (allTargets out documents publications) next := by
        intro publication publications hTo hEach
        obtain ⟨next, hAll⟩ := hAccepts (publication :: publications) (.cons (hOwn _ hTo) hEach)
        rw [allTargets_cons] at hAll
        obtain ⟨middle, hFirst, hRest⟩ := hAll.of_append
        exact ⟨middle, next, hFirst, hRest⟩
      obtain ⟨publication, between, hTo, hRunOwn, hStores, hEnds⟩ :=
        runOn_publishDocument hDisk (join out document.2) ⟨text, site, hNow, hSite, hRandom⟩
          (fun publication hTo => by
            obtain ⟨publications, hEach⟩ := exists_publishEach hOthers
            obtain ⟨middle, -, hFirst, -⟩ := hSplit publication publications hTo hEach
            exact ⟨middle, hFirst⟩) report
      obtain ⟨publications, after, hEach, hRunOthers, hRest⟩ :=
        ih (report.tells (told (join out document.2) publication))
          (hKeeps.trans (.of_storesEach hStores hEnds)) hNames hOthers (fun publications hEach => by
            obtain ⟨middle, next, hFirst, hLast⟩ := hSplit publication publications hTo hEach
            rw [hFirst.eq hStores] at hLast
            exact ⟨next, hLast⟩)
      refine ⟨publication :: publications, after, .cons (hOwn _ hTo) hEach, ?_, ?_⟩
      · obtain ⟨path, stem⟩ := document
        rw [publishDocuments, Step.runOn_bind_of_ok hRunOwn, Step.runOn_bind_of_ok hRunOthers,
          Step.runOn_pure, Report.tells_tells, allTargets_cons, List.length_append, targets,
          List.length_map]
        rfl
      · rw [allTargets_cons]
        exact hStores.append hRest

/-- What the command tells in the end, when there were documents. -/
def summary (dir out : String) (documents : List (String × String))
    (publications : List Publication) : Except Unit Unit × List Line :=
  if documents.isEmpty then (.error (), [.noSites dir])
  else (.ok (), allTold out documents publications ++
    [.published (allTargets out documents publications).length])

/-- When no document and no file fails, all files of all documents of a folder are stored, in the
order in which the disk visits the documents, and all are told and counted. -/
theorem runOn_publish (hDisk : ActsAs disk view) {dir : String} {state : σ} (report : Report)
    (hFolder : (view state).kind? dir = some .folder)
    (hPublishes : ∀ document ∈ siteDocuments ((view state).filesBelow dir),
      Publishes options (view state) document.1)
    (hAccepts : ∀ documents publications,
      documents.Perm (siteDocuments ((view state).filesBelow dir)) →
      PublishEach options (view state) documents publications →
      ∃ next, StoresEach (view state) (allTargets out documents publications) next) :
    ∃ documents publications after,
      documents.Perm (siteDocuments ((view state).filesBelow dir)) ∧
      PublishEach options (view state) documents publications ∧
      (publish disk options dir out false).runOn report state =
        (((summary dir out documents publications).1,
          report.tells (summary dir out documents publications).2), after) ∧
      StoresEach (view state) (allTargets out documents publications) (view after) := by
  have hTree : (FileTree.disk.kind? dir).run (view state) = (some .folder, view state) :=
    congrArg (fun found => (found, view state)) hFolder
  obtain ⟨found, hKind, hFound⟩ := (hDisk.kind? dir).exists_run hTree
  have hWalk := hDisk.filesBelow dir found
  rcases hPaths : ((disk.filesBelow dir).run found : _ × σ) with ⟨paths, now⟩
  rw [hPaths, hFound] at hWalk
  obtain ⟨hPerm, hNow⟩ := hWalk
  have hDocuments : (siteDocuments paths).Perm (siteDocuments ((view state).filesBelow dir)) :=
    hPerm.filterMap _
  have hNowView : view now = view state := hNow
  rw [publish, Step.runOn_bind_of_ok (Step.runOn_ask_of_run hKind)]
  dsimp only
  rw [Step.runOn_bind_of_ok (Step.runOn_ask_of_run hPaths)]
  cases hEmpty : siteDocuments paths with
  | nil =>
      refine ⟨[], [], now, hEmpty ▸ hDocuments, .nil, rfl, ?_⟩
      rw [hNowView]
      exact .nil _
  | cons document documents =>
      rw [← hEmpty]
      obtain ⟨publications, after, hEach, hRun, hStores⟩ :=
        runOn_publishDocuments hDisk out (siteDocuments paths) report
          (hNowView ▸ .refl _) (fun _ => siteStem?_of_siteDocuments)
          (fun document hMem => hPublishes document (hDocuments.subset hMem))
          (fun publications hEach => hNowView ▸ hAccepts _ publications hDocuments hEach)
      refine ⟨siteDocuments paths, publications, after, hDocuments, hEach, ?_, hNowView ▸ hStores⟩
      have hSome : (siteDocuments paths).isEmpty = false := by
        rw [hEmpty]
        rfl
      simp only [hSome, Bool.false_eq_true, if_false]
      rw [Step.runOn_bind_of_ok hRun, summary, hSome]
      have hTell := Step.runOn_tell
        (.published (allTargets out (siteDocuments paths) publications).length)
        (report.tells (allTold out (siteDocuments paths) publications)) after
      simp only [tellCount, Bool.false_eq_true, if_false]
      rw [hTell]
      simp [Report.tells]

/-! ## Files that meet -/

/-- A path of a slash and then plain names. -/
def IsPlainPath (path : String) : Prop :=
  ∃ name names, Text.cutText '/' path = "" :: name :: names ∧ ∀ other ∈ name :: names, IsPlain other

/-- Below the root a plain path has the names behind its slash. -/
theorem IsPlainPath.cutText (h : IsPlainPath path) :
    Text.cutText '/' path = "" :: Text.cutText '/' (belowRoot path) ∧
      ∀ name ∈ Text.cutText '/' (belowRoot path), IsPlain name := by
  obtain ⟨name, names, hCut, hPlain⟩ := h
  have hName := (hPlain name List.mem_cons_self).1
  rw [hCut]
  unfold Text.cutText at hCut
  cases hChars : path.toList with
  | nil =>
      rw [hChars] at hCut
      cases hCut
  | cons c cs =>
      have hSlash : c = '/' := by
        by_contra hOther
        obtain ⟨piece, pieces, hPiece⟩ := List.exists_cons_of_ne_nil (Text.cut_ne_nil '/' cs)
        rw [hChars, Text.cut, if_neg hOther, hPiece] at hCut
        have hEmpty := (List.cons.inj hCut).1
        simp at hEmpty
      subst hSlash
      rw [hChars, Text.cut, if_pos rfl] at hCut
      have hNames := (List.cons.inj hCut).2
      have hStart : cs.dropWhile (· = '/') = cs := by
        cases cs with
        | nil => rfl
        | cons d ds =>
            refine List.dropWhile_cons_of_neg fun hSlash => hName ?_
            rw [Text.cut, if_pos (of_decide_eq_true hSlash)] at hNames
            exact (List.cons.inj hNames).1.symm
      have hBelow : Text.cutText '/' (belowRoot path) = name :: names := by
        rw [← hNames, Text.cutText, belowRoot, String.toList_ofList, hChars,
          List.dropWhile_cons_of_pos (by decide), hStart]
      rw [hBelow]
      exact ⟨rfl, hPlain⟩

/-- The place of a file with a plain path, of a document with a plain name, has both. -/
theorem place_of_resolve {stem : String} {place : Place} (hSlash : '/' ∉ stem.toList)
    (hStem : IsPlain stem) (hPath : IsPlainPath path)
    (h : tree.resolve (target (join out stem) path) = .ok place) :
    ∃ root, tree.follow (tree.start out) (Text.cutText '/' out) = .ok root ∧
      root ++ stem :: Text.cutText '/' (belowRoot path) = place := by
  rw [target_join hSlash] at h
  obtain ⟨root, hRoot, hBelow⟩ := exists_root_of_resolve (isAbsolute_folderPrefix hSlash path) h
  rw [cutText_folderPrefix hSlash, if_neg hStem.1] at hBelow
  exact ⟨root, hRoot, follow_plain (List.forall_mem_cons.2 ⟨hStem, hPath.cutText.2⟩) hBelow⟩

/-- Files with plain paths, of documents with plain names, meet only when they have one path and
their documents one name. -/
theorem eq_of_resolve {stem other path otherPath : String} {place : Place}
    (hSlashes : '/' ∉ stem.toList ∧ '/' ∉ other.toList) (hStems : IsPlain stem ∧ IsPlain other)
    (hPaths : IsPlainPath path ∧ IsPlainPath otherPath)
    (h : tree.resolve (target (join out stem) path) = .ok place)
    (hOther : tree.resolve (target (join out other) otherPath) = .ok place) :
    stem = other ∧ path = otherPath := by
  obtain ⟨root, hRoot, hPlace⟩ := place_of_resolve hSlashes.1 hStems.1 hPaths.1 h
  obtain ⟨otherRoot, hOtherRoot, hSame⟩ := place_of_resolve hSlashes.2 hStems.2 hPaths.2 hOther
  obtain rfl : root = otherRoot := Except.ok.inj (hRoot.symm.trans hOtherRoot)
  obtain ⟨hStem, hNames⟩ := List.cons.inj (List.append_cancel_left (hPlace.trans hSame.symm))
  refine ⟨hStem, Text.cutText_inj '/' ?_⟩
  rw [hPaths.1.cutText.1, hPaths.2.cutText.1, hNames]

/-- Of documents with names of their own no two files with different texts meet, when all names and
paths are plain. -/
theorem same_text_of_resolve {documents : List (String × String)} {publications : List Publication}
    (hEach : PublishEach options tree documents publications)
    (hNamed : ∀ document ∈ documents, '/' ∉ document.2.toList ∧ IsPlain document.2)
    (hOwn : (documents.map Prod.snd).Nodup)
    (hPlain : ∀ publication ∈ publications, ∀ file ∈ publication.files, IsPlainPath file.path)
    {first second : String × String} (hFirst : first ∈ allTargets out documents publications)
    (hSecond : second ∈ allTargets out documents publications) {place : Place}
    (hPlace : next.resolve first.1 = .ok place) (hMeet : next.resolve second.1 = .ok place) :
    first.2 = second.2 := by
  obtain ⟨pair, hPair, file, hFile, rfl⟩ := mem_allTargets.1 hFirst
  obtain ⟨other, hOther, otherFile, hOtherFile, rfl⟩ := mem_allTargets.1 hSecond
  have hIn := List.of_mem_zip hPair
  have hOtherIn := List.of_mem_zip hOther
  obtain ⟨hSlash, hStem⟩ := hNamed pair.1 hIn.1
  obtain ⟨hOtherSlash, hOtherStem⟩ := hNamed other.1 hOtherIn.1
  obtain ⟨hStems, hPaths⟩ := eq_of_resolve ⟨hSlash, hOtherSlash⟩ ⟨hStem, hOtherStem⟩
    ⟨hPlain _ hIn.2 file hFile, hPlain _ hOtherIn.2 otherFile hOtherFile⟩ hPlace hMeet
  have hStemsOwn : ((documents.zip publications).map fun pair => pair.1.2).Nodup := by
    have hZip := List.map_fst_zip (Nat.le_of_eq hEach.length_eq)
    rwa [← hZip, List.map_map] at hOwn
  obtain rfl : pair = other := List.inj_on_of_nodup_map hStemsOwn hPair hOther hStems
  have hPathsOwn : OwnPaths pair.2 := by
    obtain ⟨_, _, _, -, -, -, hPathsOwn⟩ := List.forall₂_zip hEach hPair
    exact hPathsOwn
  obtain rfl : file = otherFile := List.inj_on_of_nodup_map hPathsOwn hFile hOtherFile hPaths
  rfl

/-! ## Two documents -/

/-- A document of one page, with a text. -/
def onePage (text : String) : Json :=
  .object [("pages", .array [.object [("name", .string "a"),
    ("component", .object [("content", .string text)])]])]

/-- What it is published to. -/
def onePageFile (text : String) : Publication := ⟨[⟨"/a.html", .html, text⟩], []⟩

theorem read_onePage (h : text ∈ ["1", "2"]) :
    Site.read (onePage text).compact = .ok { pages := [⟨"a", {}, .leaf { content := text }⟩] } := by
  have hText : Json.read (onePage text).compact = .ok (onePage text) := by
    rcases List.mem_pair.1 h with rfl | rfl
    · with_unfolding_all rfl
    · with_unfolding_all rfl
  rw [Site.read, hText]
  rcases List.mem_pair.1 h with rfl | rfl <;> rfl

theorem publishIn_onePage (h : text ∈ ["1", "2"]) (random : List UInt32) :
    (Site.publishIn { pages := [⟨"a", {}, .leaf { content := text }⟩] } { enabled := false }
      (freshContext { enabled := false } random)).1 = .ok (onePageFile text) := by
  rcases List.mem_pair.1 h with rfl | rfl <;> cases random <;> rfl

theorem publishes_onePage (h : text ∈ ["1", "2"])
    (hRead : tree.read path = .ok (onePage text).compact) :
    Publishes { enabled := false } tree path :=
  ⟨_, _, hRead, read_onePage h, fun random =>
    ⟨_, publishIn_onePage h random, List.nodup_singleton _⟩⟩

theorem publishesTo_onePage (h : text ∈ ["1", "2"])
    (hRead : tree.read path = .ok (onePage text).compact) :
    PublishesTo { enabled := false } tree path publication ↔ publication = onePageFile text := by
  constructor
  · rintro ⟨other, site, random, hOther, hSite, hOk, -⟩
    obtain rfl : (onePage text).compact = other := Except.ok.inj (hRead.symm.trans hOther)
    obtain rfl := Except.ok.inj ((read_onePage h).symm.trans hSite)
    exact Except.ok.inj (hOk.symm.trans (publishIn_onePage h random))
  · rintro rfl
    exact ⟨_, _, [], hRead, read_onePage h, publishIn_onePage h [], List.nodup_singleton _⟩

/-- Two documents in folders of their own. -/
def twoDocuments (stem : String) : FileTree where
  working := []
  entries := [(["sites"], .folder), (["sites", "a"], .folder),
    (["sites", "a", "x.site.json"], .file (onePage "1").compact), (["sites", "b"], .folder),
    (["sites", "b", stem ++ ".site.json"], .file (onePage "2").compact)]

section

variable {stem : String} {documents : List (String × String)} {publications : List Publication}

theorem siteDocuments_twoDocuments (h : stem ∈ ["x", "y"]) :
    siteDocuments ((twoDocuments stem).filesBelow "sites") =
      [("sites/a/x.site.json", "x"), ("sites/b/" ++ stem ++ ".site.json", stem)] := by
  have hSorted : [["a", "x.site.json"], ["b", stem ++ ".site.json"]].Pairwise fun a b =>
      comesBefore a b = true := by
    rw [List.pairwise_pair, comesBefore, show decide ("a" < "b") = true by decide, Bool.true_or]
  have hFiles : (twoDocuments stem).filesBelow "sites" =
      [["a", "x.site.json"], ["b", stem ++ ".site.json"]].map fun names =>
        names.foldl FilePath.join "sites" :=
    filesBelow_of_sorted rfl rfl hSorted
  rw [hFiles]
  rcases List.mem_pair.1 h with rfl | rfl
  · decide +kernel
  · decide +kernel

theorem read_twoDocuments (h : stem ∈ ["x", "y"]) :
    (twoDocuments stem).read "sites/a/x.site.json" = .ok (onePage "1").compact ∧
      (twoDocuments stem).read ("sites/b/" ++ stem ++ ".site.json") =
        .ok (onePage "2").compact := by
  rcases List.mem_pair.1 h with rfl | rfl <;> exact ⟨rfl, rfl⟩

theorem publishes_twoDocuments (h : stem ∈ ["x", "y"]) :
    ∀ document ∈ siteDocuments ((twoDocuments stem).filesBelow "sites"),
      Publishes { enabled := false } (twoDocuments stem) document.1 := by
  obtain ⟨hFirst, hSecond⟩ := read_twoDocuments h
  rw [siteDocuments_twoDocuments h, List.forall_mem_cons, List.forall_mem_singleton]
  exact ⟨publishes_onePage (by decide) hFirst, publishes_onePage (by decide) hSecond⟩

/-- The two documents are visited in one of two orders. -/
theorem orders_twoDocuments (h : stem ∈ ["x", "y"])
    (hDocuments : documents.Perm (siteDocuments ((twoDocuments stem).filesBelow "sites")))
    (hEach : PublishEach { enabled := false } (twoDocuments stem) documents publications) :
    documents = [("sites/a/x.site.json", "x"), ("sites/b/" ++ stem ++ ".site.json", stem)] ∧
        publications = [onePageFile "1", onePageFile "2"] ∨
      documents = [("sites/b/" ++ stem ++ ".site.json", stem), ("sites/a/x.site.json", "x")] ∧
        publications = [onePageFile "2", onePageFile "1"] := by
  obtain ⟨hFirst, hSecond⟩ := read_twoDocuments h
  have hOrders : documents =
        [("sites/a/x.site.json", "x"), ("sites/b/" ++ stem ++ ".site.json", stem)] ∨
      documents = [("sites/b/" ++ stem ++ ".site.json", stem), ("sites/a/x.site.json", "x")] := by
    rw [siteDocuments_twoDocuments h, ← List.mem_permutations] at hDocuments
    simpa [List.permutations] using hDocuments
  rcases hOrders with rfl | rfl
  · obtain ⟨_, _, hOne, hRest, rfl⟩ := List.forall₂_cons_left_iff.1 hEach
    obtain ⟨_, _, hTwo, ⟨⟩, rfl⟩ := List.forall₂_cons_left_iff.1 hRest
    rw [(publishesTo_onePage (by decide) hFirst).1 hOne,
      (publishesTo_onePage (by decide) hSecond).1 hTwo]
    exact .inl ⟨rfl, rfl⟩
  · obtain ⟨_, _, hTwo, hRest, rfl⟩ := List.forall₂_cons_left_iff.1 hEach
    obtain ⟨_, _, hOne, ⟨⟩, rfl⟩ := List.forall₂_cons_left_iff.1 hRest
    rw [(publishesTo_onePage (by decide) hFirst).1 hOne,
      (publishesTo_onePage (by decide) hSecond).1 hTwo]
    exact .inr ⟨rfl, rfl⟩

/-- The files of the two documents can be stored. -/
theorem accepts_twoDocuments (h : stem ∈ ["x", "y"])
    (hDocuments : documents.Perm (siteDocuments ((twoDocuments stem).filesBelow "sites")))
    (hEach : PublishEach { enabled := false } (twoDocuments stem) documents publications) :
    ∃ next, StoresEach (twoDocuments stem) (allTargets "out" documents publications) next := by
  have hAccepts : (storeAll (twoDocuments stem) (allTargets "out" documents publications)).isSome =
      true := by
    rcases orders_twoDocuments h hDocuments hEach with ⟨rfl, rfl⟩ | ⟨rfl, rfl⟩ <;>
      · rcases List.mem_pair.1 h with rfl | rfl
        · decide +kernel
        · decide +kernel
  obtain ⟨next, hNext⟩ := Option.isSome_iff_exists.1 hAccepts
  exact ⟨next, storeAll_eq_some_iff.1 hNext⟩

theorem isPlainPath_onePageFile (text : String) :
    ∀ file ∈ (onePageFile text).files, IsPlainPath file.path := by
  rw [onePageFile, List.forall_mem_singleton]
  have hCut : Text.cutText '/' "/a.html" = "" :: "a.html" :: [] := by decide
  refine ⟨"a.html", [], hCut, ?_⟩
  rw [List.forall_mem_singleton]
  decide

end

/-! ## Folders of documents -/

/-- Publishing a folder of documents that are all published without an error, on a disk that can
store all their files, in whatever order it visits the documents. Every file is on the disk with its
own text in the end exactly when no two files with different texts meet at one place. When the
documents have plain names of their own and the files have plain paths no two files meet. -/
theorem publish_folder (hDisk : ActsAs disk view) {dir : String} {state : σ} (report : Report)
    (hFolder : (view state).kind? dir = some .folder)
    (hPublishes : ∀ document ∈ siteDocuments ((view state).filesBelow dir),
      Publishes options (view state) document.1)
    (hAccepts : ∀ documents publications,
      documents.Perm (siteDocuments ((view state).filesBelow dir)) →
      PublishEach options (view state) documents publications →
      ∃ next, StoresEach (view state) (allTargets out documents publications) next) :
    ∃ documents publications after,
      documents.Perm (siteDocuments ((view state).filesBelow dir)) ∧
      PublishEach options (view state) documents publications ∧
      (publish disk options dir out false).runOn report state =
        (((summary dir out documents publications).1,
          report.tells (summary dir out documents publications).2), after) ∧
      ((∀ file ∈ allTargets out documents publications,
          (view after).read file.1 = .ok file.2) ↔
        ∀ first ∈ allTargets out documents publications,
          ∀ second ∈ allTargets out documents publications,
            (view after).resolve first.1 = (view after).resolve second.1 → first.2 = second.2) ∧
      ((documents.map Prod.snd).Nodup → (∀ document ∈ documents, IsPlain document.2) →
        (∀ publication ∈ publications, ∀ file ∈ publication.files, IsPlainPath file.path) →
        ∀ file ∈ allTargets out documents publications,
          (view after).read file.1 = .ok file.2) := by
  obtain ⟨documents, publications, after, hDocuments, hEach, hRun, hStores⟩ :=
    runOn_publish hDisk report hFolder hPublishes hAccepts
  refine ⟨documents, publications, after, hDocuments, hEach, hRun, hStores.read_all_iff, ?_⟩
  intro hOwn hStems hPaths
  refine hStores.read_all_iff.2 fun first hFirst second hSecond hMeet => ?_
  obtain ⟨place, hPlace⟩ := hStores.resolve first hFirst
  have hNamed : ∀ document ∈ documents, '/' ∉ document.2.toList ∧ IsPlain document.2 := by
    intro document hDocument
    exact ⟨slash_not_mem_siteStem? (siteStem?_of_siteDocuments (hDocuments.subset hDocument)),
      hStems document hDocument⟩
  exact same_text_of_resolve hEach hNamed hOwn hPaths hFirst hSecond hPlace (hMeet ▸ hPlace)

/-- Two documents with names of their own: the files of both are there in the end. -/
theorem publish_twoDocuments :
    (twoDocuments "y").kind? "sites" = some .folder ∧ ∃ report after,
      (publish FileTree.disk { enabled := false } "sites" "out" false).runOn {} (twoDocuments "y") =
        ((.ok (), report), after) ∧
      after.read "out/x/a.html" = .ok "1" ∧ after.read "out/y/a.html" = .ok "2" := by
  have hPair : "y" ∈ ["x", "y"] := by decide
  have hFolder : (twoDocuments "y").kind? "sites" = some .folder := rfl
  obtain ⟨documents, publications, after, hDocuments, hEach, hRun, -, hAll⟩ :=
    @publish_folder _ _ _ { enabled := false } "out" actsAs_tree "sites" (twoDocuments "y") {}
      hFolder (publishes_twoDocuments hPair) fun _ _ => accepts_twoDocuments hPair
  have hNames : IsPlain "x" ∧ IsPlain "y" := by decide
  have hPaths : ∀ publication ∈ publications, ∀ file ∈ publication.files,
      IsPlainPath file.path := by
    rcases orders_twoDocuments hPair hDocuments hEach with ⟨-, rfl⟩ | ⟨-, rfl⟩ <;>
      exact List.forall_mem_cons.2 ⟨isPlainPath_onePageFile _,
        List.forall_mem_singleton.2 (isPlainPath_onePageFile _)⟩
  refine ⟨hFolder, Report.tells {} (summary "sites" "out" documents publications).2, after, ?_⟩
  rcases orders_twoDocuments hPair hDocuments hEach with ⟨rfl, rfl⟩ | ⟨rfl, rfl⟩
  · have hThere := hAll (by decide) (by simp [hNames]) hPaths
    exact ⟨hRun, hThere ("out/x/a.html", "1") (by decide), hThere ("out/y/a.html", "2") (by decide)⟩
  · have hThere := hAll (by decide) (by simp [hNames]) hPaths
    exact ⟨hRun, hThere ("out/x/a.html", "1") (by decide), hThere ("out/y/a.html", "2") (by decide)⟩

/-- Two documents with one name have files that meet, although all paths are plain, and the file of
the first is lost. -/
theorem publish_folder_loses :
    ¬ ∀ (options : Options) (tree next : FileTree) (dir out : String) (report : Report),
      tree.kind? dir = some .folder →
      (∀ document ∈ siteDocuments (tree.filesBelow dir), Publishes options tree document.1) →
      (∀ document ∈ siteDocuments (tree.filesBelow dir), IsPlain document.2 ∧
        ∀ publication, PublishesTo options tree document.1 publication →
          ∀ file ∈ publication.files, IsPlainPath file.path) →
      (publish FileTree.disk options dir out false).runOn {} tree = ((.ok (), report), next) →
      ∀ document ∈ siteDocuments (tree.filesBelow dir), ∀ publication,
        PublishesTo options tree document.1 publication → ∀ file ∈ publication.files,
          next.read (target (join out document.2) file.path) = .ok file.content := by
  intro h
  have hPair : "x" ∈ ["x", "y"] := by decide
  have hFolder : (twoDocuments "x").kind? "sites" = some .folder := rfl
  obtain ⟨hFirst, hSecond⟩ := read_twoDocuments hPair
  have hDocuments := siteDocuments_twoDocuments hPair
  have hName : IsPlain "x" := by decide
  obtain ⟨documents, publications, after, hPerm, hEach, hRun, -⟩ :=
    @runOn_publish _ _ _ { enabled := false } "out" actsAs_tree "sites" (twoDocuments "x") {}
      hFolder
      (publishes_twoDocuments hPair) fun _ _ => accepts_twoDocuments hPair
  have hOk : (summary "sites" "out" documents publications).1 = .ok () := by
    rcases orders_twoDocuments hPair hPerm hEach with ⟨rfl, rfl⟩ | ⟨rfl, rfl⟩ <;> rfl
  rw [hOk] at hRun
  have hThere := h { enabled := false } (twoDocuments "x") after "sites" "out" _ hFolder
    (publishes_twoDocuments hPair) (by
      rw [hDocuments, List.forall_mem_cons, List.forall_mem_singleton]
      refine ⟨⟨hName, fun publication hTo => ?_⟩, ⟨hName, fun publication hTo => ?_⟩⟩
      · rw [(publishesTo_onePage (by decide) hFirst).1 hTo]
        exact isPlainPath_onePageFile "1"
      · rw [(publishesTo_onePage (by decide) hSecond).1 hTo]
        exact isPlainPath_onePageFile "2") hRun
  rw [hDocuments, List.forall_mem_cons, List.forall_mem_singleton] at hThere
  have hOne := hThere.1 _ ((publishesTo_onePage (by decide) hFirst).2 rfl) _ List.mem_cons_self
  have hTwo := hThere.2 _ ((publishesTo_onePage (by decide) hSecond).2 rfl) _ List.mem_cons_self
  have hSame : "1" = "2" := Except.ok.inj (hOne.symm.trans hTwo)
  exact absurd hSame (by decide)

end Cli

end PagePress
