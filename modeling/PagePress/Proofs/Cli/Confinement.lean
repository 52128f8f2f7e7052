import PagePress.Proofs.Cli.Folders

/-!
# Staying inside the output folder

Whatever becomes of the command, it changes files below its output folder only, as long as nothing
in the paths that it writes to leads up. The folders in the options and the names of documents can
be seen to that; what is left are the languages of pages, which go into the paths of their files as
they stand. A language with a double dot between two slashes leads up, and then the file of its page
is written somewhere else, outside the output folder if there are enough of them.

## Main results

* `Site.publishIn_climbs_iff` — when a published path leads up.
* `confined_writeFile` — what storing one file changes.
* `publish_confined` — both, and that the command changes nothing outside when no language leads up.
-/

namespace PagePress

open FilePath Cli.FileTree Route

/-- A published path leads up exactly when a page that did not fail has a language that does. -/
theorem Site.publishIn_climbs_iff {site : Site} {options : Options} {context : Context}
    {publication : Publication} (hFolders : StaysDown options.folders)
    (h : (site.publishIn options context).1 = .ok publication) :
    (∃ file ∈ publication.files, Climbs file.path) ↔ options.enabled = true ∧
      ∃ page ∈ site.pages, pageFault? site.host options context page = none ∧
        ∃ lang ∈ page.settings.languages, ClimbsBetween lang := by
  obtain ⟨hOk, hFiles⟩ := Site.publishIn_eq_ok h
  rw [hFiles]
  exact publishPages_climbs_iff hFolders hOk

namespace Cli

variable {σ α β : Type} {disk : Disk (StateM σ)} {view : σ → FileTree} {options : Options}
  {tree middle next : FileTree} {path out context text stem : String} {site : Site}

/-! ## Paths below a folder -/

/-- A path goes on from a folder, and not up. -/
def LiesBelow (out path : String) : Prop :=
  ∃ rest, path = folderPrefix out ++ rest ∧ isAbsolute rest = false ∧ ¬ Climbs rest

theorem climbs_of_belowRoot (h : Climbs (belowRoot path)) : Climbs path := by
  rw [climbs_iff, belowRoot, String.toList_ofList] at h
  exact climbs_iff.2 ((Text.cut_dropWhile_suffix '/' path.toList).subset h)

theorem liesBelow_target (out : String) (h : ¬ Climbs path) : LiesBelow out (target out path) :=
  ⟨belowRoot path, target_eq out path, isAbsolute_belowRoot path,
    fun hUp => h (climbs_of_belowRoot hUp)⟩

/-- A file of a document goes below the output folder, unless the name of the document leads up. -/
theorem liesBelow_target_join (out : String) (hSlash : '/' ∉ stem.toList) (hStem : stem ≠ "..")
    (h : ¬ Climbs path) : LiesBelow out (target (join out stem) path) := by
  refine ⟨_, target_join hSlash out path, isAbsolute_folderPrefix hSlash path, fun hUp => ?_⟩
  rw [Climbs, cutText_folderPrefix hSlash, List.mem_append] at hUp
  rcases hUp with hOwn | hPath
  · split at hOwn
    · cases hOwn
    · exact hStem (List.mem_singleton.1 hOwn).symm
  · exact h (climbs_of_belowRoot hPath)

/-! ## Changes below a folder -/

/-- A tree after changes of files below a folder, which leave all documents as they were. -/
structure Confined (out : String) (tree next : FileTree) : Prop where
  keeps : KeepsDocuments tree next
  below : ∀ place text, next.lookup place = some (.file text) →
    tree.lookup place = some (.file text) ∨
      ∃ root, next.follow (next.start out) (Text.cutText '/' out) = .ok root ∧ root <+: place

namespace Confined

theorem refl (out : String) (tree : FileTree) : Confined out tree tree :=
  ⟨.refl tree, fun _ _ h => .inl h⟩

theorem trans (hFirst : Confined out tree middle) (hSecond : Confined out middle next) :
    Confined out tree next := by
  refine ⟨hFirst.keeps.trans hSecond.keeps, fun place text hText => ?_⟩
  rcases hSecond.below place text hText with hOld | hBelow
  · refine (hFirst.below place text hOld).imp_right ?_
    rintro ⟨root, hRoot, hPlace⟩
    refine ⟨root, ?_, hPlace⟩
    rw [start_of_grows hSecond.keeps.grows]
    exact follow_of_grows hSecond.keeps.grows hRoot
  · exact .inr hBelow

end Confined

/-- Storing a file below a folder changes that file only, when it does not fail. -/
theorem confined_writeFile (hPath : LiesBelow out path) (hName : IsPublishedName path)
    {result : Except DiskFault Unit}
    (h : (FileTree.disk.writeFile path text).run tree = (result, next)) :
    Confined out tree next := by
  rcases writeFile_cases h with ⟨fault, -, hAdds⟩ | ⟨-, place, hStores⟩
  · exact ⟨.of_addsFolders hAdds,
      fun place text hText => .inl ((hAdds.file_iff place text).1 hText)⟩
  · refine ⟨.of_stores hStores hName, fun other found hText => ?_⟩
    by_cases hSame : other = place
    · subst hSame
      obtain ⟨rest, rfl, hRelative, hDown⟩ := hPath
      obtain ⟨root, hRoot, hBelow⟩ := exists_root_of_resolve hRelative hStores.resolve
      exact .inr ⟨root, hRoot, prefix_of_follow hDown hBelow⟩
    · exact .inl ((hStores.other other found hSame).1 hText)

/-! ## Steps that stay below a folder -/

/-- No page of a site that is published for the generator has a language that leads up. -/
def LanguagesStayDown (options : Options) (site : Site) : Prop :=
  options.enabled = true → ∀ page ∈ site.pages, ∀ lang ∈ page.settings.languages,
    ¬ ClimbsBetween lang

/-- No site document of a tree has a language that leads up. -/
def DocumentsStayDown (options : Options) (tree : FileTree) : Prop :=
  ∀ place text site, IsDocument place → tree.lookup place = some (.file text) →
    Site.read text = .ok site → LanguagesStayDown options site

theorem DocumentsStayDown.of_keeps (h : DocumentsStayDown options tree)
    (hKeeps : KeepsDocuments tree next) : DocumentsStayDown options next :=
  fun place text site hPlace hText => h place text site hPlace
    ((hKeeps.document place hPlace text).1 hText)

/-- From a disk whose documents stay down a step changes files below a folder only, and gives a
value with a property when it does not stop. -/
def Confines (view : σ → FileTree) (options : Options) (out : String) (property : α → Prop)
    (step : Step (StateM σ) α) : Prop :=
  ∀ report state, DocumentsStayDown options (view state) →
    Confined out (view state) (view (step.runOn report state).2) ∧
      ∀ value, (step.runOn report state).1.1 = .ok value → property value

namespace Confines

variable {property : α → Prop} {goal : β → Prop}

/-- A step that leaves the files as they are is confined. -/
theorem of_view {step : Step (StateM σ) α}
    (h : ∀ report state, DocumentsStayDown options (view state) →
      view (step.runOn report state).2 = view state ∧
        ∀ value, (step.runOn report state).1.1 = .ok value → property value) :
    Confines view options out property step := by
  intro report state hState
  obtain ⟨hView, hValue⟩ := h report state hState
  rw [hView]
  exact ⟨.refl out _, hValue⟩

theorem pure {value : α} (h : property value) :
    Confines view options out property (Pure.pure value : Step (StateM σ) α) :=
  of_view fun _ _ _ => ⟨rfl, fun _ hValue => Except.ok.inj hValue ▸ h⟩

theorem tell (line : Line) :
    Confines view options out (fun _ => True) (Cli.tell line : Step (StateM σ) Unit) :=
  of_view fun _ _ _ => ⟨rfl, fun _ _ => trivial⟩

theorem stopWith (line : Line) :
    Confines view options out property (Cli.stopWith line : Step (StateM σ) α) :=
  of_view fun _ _ _ => ⟨rfl, by rintro _ ⟨⟩⟩

theorem bind (property : α → Prop) {first : Step (StateM σ) α} {second : α → Step (StateM σ) β}
    (hFirst : Confines view options out property first)
    (hSecond : ∀ value, property value → Confines view options out goal (second value)) :
    Confines view options out goal (first >>= second) := by
  intro report state hState
  obtain ⟨hConfined, hValue⟩ := hFirst report state hState
  rw [Step.runOn_bind]
  rcases hRun : first.runOn report state with ⟨⟨result, between⟩, now⟩
  rw [hRun] at hConfined hValue
  cases result with
  | error _ => exact ⟨hConfined, by rintro _ ⟨⟩⟩
  | ok value =>
      obtain ⟨hRest, hGoal⟩ := hSecond value (hValue value rfl) between now
        (hState.of_keeps hConfined.keeps)
      exact ⟨hConfined.trans hRest, hGoal⟩

/-- Questions that leave the files as they are. -/
theorem ask {question : StateM σ α}
    (h : ∀ state, DocumentsStayDown options (view state) →
      view (question.run state : α × σ).2 = view state ∧
        property (question.run state : α × σ).1) :
    Confines view options out property (Cli.ask question) :=
  of_view fun _ state hState => ⟨(h state hState).1, fun _ hValue =>
    Except.ok.inj hValue ▸ (h state hState).2⟩

end Confines

/-! ## The steps of the command -/

/-- The document that is read is one of the tree. -/
theorem confines_readSite (hDisk : ActsAs disk view) (hStem : siteStem? path = some stem) :
    Confines view options out (LanguagesStayDown options) (readSite disk path) := by
  have hText : Confines view options out
      (fun text => ∀ site, Site.read text = .ok site → LanguagesStayDown options site)
      (readFile disk path path) := by
    refine .bind (fun found => ∀ text, found = .ok text → ∀ site,
      Site.read text = .ok site → LanguagesStayDown options site) (.ask fun state hState => ?_)
      fun found hFound => ?_
    · obtain ⟨after, hRun, hAfter⟩ := (hDisk.read path).exists_run rfl
      rw [hRun]
      refine ⟨hAfter, fun text hRead site hSite => ?_⟩
      obtain ⟨place, -, hPlace, hDocument⟩ := isDocument_of_read hStem hRead
      exact hState place text site hDocument hPlace hSite
    · split
      · exact .pure (hFound _ rfl)
      · exact .stopWith _
  refine .bind _ hText fun text hSites => ?_
  split
  · rename_i site hSite
    exact .pure (hSites site hSite)
  · exact .stopWith _

theorem confines_tellNotices (notices : List Notice) :
    Confines view options out (fun _ => True) (tellNotices notices : Step (StateM σ) Unit) := by
  induction notices with
  | nil => exact .pure trivial
  | cons notice notices ih => exact .bind _ (.tell _) fun _ _ => ih

/-- Files that go below a folder change nothing but that folder. -/
theorem confines_writeFiles (hDisk : ActsAs disk view) {below : String} (files : List PublishedFile)
    (h : ∀ file ∈ files, LiesBelow out (target below file.path) ∧
      IsPublishedName (target below file.path)) :
    Confines view options out (fun _ => True) (writeFiles disk below context files) := by
  induction files with
  | nil => exact .pure trivial
  | cons file files ih =>
      obtain ⟨⟨hPath, hName⟩, hRest⟩ := List.forall_mem_cons.1 h
      have hStored : Confines view options out (fun _ => True)
          (ask (disk.writeFile (target below file.path) file.content)) := by
        intro report state _
        rcases hModel : (FileTree.disk.writeFile (target below file.path) file.content).run
          (view state) with ⟨result, next⟩
        obtain ⟨after, hRun, rfl⟩ := (hDisk.writeFile _ _).exists_run hModel
        rw [Step.runOn_ask_of_run hRun]
        exact ⟨confined_writeFile hPath hName hModel, fun _ _ => trivial⟩
      refine .bind _ hStored fun result _ => ?_
      split
      · exact .stopWith _
      · exact .bind _ (.tell _) fun _ _ => ih hRest

/-- A document is published below a folder, or it fails, or it is printed. -/
theorem confines_publishDocument (hDisk : ActsAs disk view) (hFolders : StaysDown options.folders)
    (hStem : siteStem? path = some stem) {below : String}
    (hBelow : ∀ path, ¬ Climbs path → LiesBelow out (target below path)) (json : Bool) :
    Confines view options out (fun _ => True) (publishDocument disk options path below json) := by
  refine .bind _ (confines_readSite hDisk hStem) fun site hSite => ?_
  refine .bind (fun _ => True) (.ask fun state _ => ⟨hDisk.random _ state, trivial⟩)
    fun random _ => ?_
  refine .bind (fun publication =>
    (site.publishIn options (freshContext options random)).1 = .ok publication) ?_
    fun publication hOk => ?_
  · generalize (site.publishIn options (freshContext options random)).1 = result
    cases result with
    | ok publication => exact .pure rfl
    | error error => exact .stopWith _
  · refine .bind _ (confines_tellNotices publication.notices) fun _ _ => ?_
    have hFiles : ∀ file ∈ publication.files, LiesBelow out (target below file.path) ∧
        IsPublishedName (target below file.path) := by
      intro file hFile
      refine ⟨hBelow file.path fun hUp => ?_,
        isPublishedName_of_publishIn hOk below _ (List.mem_map_of_mem hFile)⟩
      obtain ⟨hEnabled, page, hPage, -, lang, hLang, hClimbs⟩ :=
        (Site.publishIn_climbs_iff hFolders hOk).1 ⟨file, hFile, hUp⟩
      exact hSite hEnabled page hPage lang hLang hClimbs
    cases json with
    | true =>
        exact .bind (fun _ => True) (.of_view fun _ _ _ => ⟨rfl, fun _ _ => trivial⟩)
          fun _ _ => .pure trivial
    | false => exact .bind _ (confines_writeFiles hDisk _ hFiles) fun _ _ => .pure trivial

/-- Documents whose names do not lead up are published below a folder. -/
theorem confines_publishDocuments (hDisk : ActsAs disk view) (hFolders : StaysDown options.folders)
    (json : Bool) (documents : List (String × String))
    (h : ∀ document ∈ documents, siteStem? document.1 = some document.2 ∧ document.2 ≠ "..") :
    Confines view options out (fun _ => True)
      (publishDocuments disk options out json documents) := by
  induction documents with
  | nil => exact .pure trivial
  | cons document documents ih =>
      obtain ⟨⟨hStem, hUp⟩, hRest⟩ := List.forall_mem_cons.1 h
      obtain ⟨path, stem⟩ := document
      have hBelow : ∀ file, ¬ Climbs file → LiesBelow out (target (join out stem) file) :=
        fun _ hFile => liesBelow_target_join out (slash_not_mem_siteStem? hStem) hUp hFile
      exact .bind _ (confines_publishDocument hDisk hFolders hStem hBelow json) fun _ _ =>
        .bind _ (ih hRest) fun _ _ => .pure trivial

theorem confines_tellCount (json : Bool) (count : Nat) :
    Confines view options out (fun _ => True) (tellCount json count : Step (StateM σ) Unit) := by
  cases json with
  | true => exact .pure trivial
  | false => exact .tell _

/-- The whole command changes files below its output folder only. -/
theorem confined_publish (hDisk : ActsAs disk view) (hFolders : StaysDown options.folders)
    {dir : String} (json : Bool) (report : Report) {state : σ}
    (hLanguages : DocumentsStayDown options (view state))
    (hNames : ∀ document ∈ siteDocuments ((view state).filesBelow dir), document.2 ≠ "..") :
    Confined out (view state)
      (view ((publish disk options dir out json).runOn report state).2) := by
  obtain ⟨found, hKind, hFound⟩ := (hDisk.kind? dir).exists_run (rfl : _ = (_, view state))
  rw [publish, Step.runOn_bind_of_ok (Step.runOn_ask_of_run hKind)]
  rw [← hFound] at hLanguages hNames ⊢
  generalize (view state).kind? dir = kind
  split
  · exact .refl out _
  · have hFile : Confines view options out (fun _ => True) (do
        if (siteStem? dir).isNone then
          stopWith (.notASite dir)
        tellCount json (← publishDocument disk options dir out json)) := by
      cases hStem : siteStem? dir with
      | none => exact .bind (fun _ => False) (.stopWith _) fun _ hNever => hNever.elim
      | some stem =>
          have hDocument := confines_publishDocument hDisk hFolders hStem
            (fun _ hPath => liesBelow_target out hPath) json
          exact .bind _ hDocument fun count _ => confines_tellCount json count
    exact (hFile report found hLanguages).1
  · have hWalk := hDisk.filesBelow dir found
    rcases hPaths : ((disk.filesBelow dir).run found : _ × σ) with ⟨paths, now⟩
    rw [hPaths] at hWalk
    obtain ⟨hPerm, hNow⟩ := hWalk
    have hSame : view now = view found := hNow
    have hDocuments : ∀ document ∈ siteDocuments paths,
        siteStem? document.1 = some document.2 ∧ document.2 ≠ ".." := fun document hDocument =>
      ⟨siteStem?_of_siteDocuments hDocument,
        hNames document ((hPerm.filterMap _).subset hDocument)⟩
    have hFolder : Confines view options out (fun _ => True) (do
        if (siteDocuments paths).isEmpty then
          stopWith (.noSites dir)
        tellCount json (← publishDocuments disk options out json (siteDocuments paths))) := by
      cases (siteDocuments paths).isEmpty with
      | true => exact .bind (fun _ => False) (.stopWith _) fun _ hNever => hNever.elim
      | false =>
          exact .bind _ (confines_publishDocuments hDisk hFolders json _ hDocuments) fun count _ =>
            confines_tellCount json count
    rw [Step.runOn_bind_of_ok (Step.runOn_ask_of_run hPaths), ← hSame]
    exact (hFolder report now (hSame ▸ hLanguages)).1

/-! ## Languages that lead up -/

/-- A document of one page in a language that leads up. -/
def upPage : Json :=
  .object [("pages", .array [.object [("name", .string "a"),
    ("settings", .object [("silexLanguagesList", .string "x/../../../y")])]])]

/-- The site in it. -/
def upSite : Site where
  pages := [⟨"a", { languagesList := some "x/../../../y" }, .leaf {}⟩]

/-- The file of its page. -/
def upFile : PublishedFile where
  path := "/a-x/../../../y.html"
  type := .html
  content :=
    "---\npermalink: \"/a/index.html\"\nlang: \"x/../../../y\"\ncollection: \"a\"\n\n---\n"

theorem read_upPage : Site.read upPage.compact = .ok upSite := by
  have hText : Json.read upPage.compact = .ok upPage := by with_unfolding_all rfl
  rw [Site.read, hText]
  rfl

theorem publishIn_upSite (random : List UInt32) :
    (upSite.publishIn {} (freshContext {} random)).1 = .ok ⟨[upFile], []⟩ := by
  cases random <;> rfl

/-- The document in a folder. -/
def upTree : FileTree where
  working := ["home"]
  entries := [(["home"], .folder), (["home", "sites"], .folder),
    (["home", "sites", "s.site.json"], .file upPage.compact)]

theorem siteDocuments_upTree :
    siteDocuments (upTree.filesBelow "sites") = [("sites/s.site.json", "s")] := by
  have hFiles : upTree.filesBelow "sites" =
      [["s.site.json"]].map fun names => names.foldl FilePath.join "sites" :=
    filesBelow_of_sorted rfl rfl (List.pairwise_singleton _ _)
  rw [hFiles]
  decide +kernel

theorem publishes_upTree :
    ∀ document ∈ siteDocuments (upTree.filesBelow "sites"), Publishes {} upTree document.1 := by
  rw [siteDocuments_upTree, List.forall_mem_singleton]
  exact ⟨_, _, rfl, read_upPage, fun random =>
    ⟨_, publishIn_upSite random, List.nodup_singleton _⟩⟩

/-- Its file goes where it leads. -/
theorem allTargets_upTree {documents : List (String × String)} {publications : List Publication}
    (hDocuments : documents.Perm (siteDocuments (upTree.filesBelow "sites")))
    (hEach : PublishEach {} upTree documents publications) :
    allTargets "out" documents publications = [("out/s/a-x/../../../y.html", upFile.content)] := by
  rw [siteDocuments_upTree] at hDocuments
  obtain rfl := List.perm_singleton.1 hDocuments
  obtain ⟨publication, _, ⟨text, site, random, hRead, hSite, hOk, -⟩, ⟨⟩, rfl⟩ :=
    List.forall₂_cons_left_iff.1 hEach
  obtain rfl : upPage.compact = text := Except.ok.inj ((rfl : upTree.read _ = _).symm.trans hRead)
  obtain rfl := Except.ok.inj (read_upPage.symm.trans hSite)
  obtain rfl := Except.ok.inj ((publishIn_upSite random).symm.trans hOk)
  rfl

theorem stored_upTree {documents : List (String × String)} {publications : List Publication}
    (hDocuments : documents.Perm (siteDocuments (upTree.filesBelow "sites")))
    (hEach : PublishEach {} upTree documents publications) :
    ∃ next, StoresEach upTree (allTargets "out" documents publications) next ∧
      next.lookup ["home", "y.html"] = some (.file upFile.content) := by
  have hStored : (storeAll upTree [("out/s/a-x/../../../y.html", upFile.content)]).bind (fun next =>
      next.lookup ["home", "y.html"]) = some (.file upFile.content) := by
    decide +kernel
  rw [allTargets_upTree hDocuments hEach]
  obtain ⟨next, hNext, hFile⟩ := Option.bind_eq_some_iff.1 hStored
  exact ⟨next, storeAll_eq_some_iff.1 hNext, hFile⟩

/-! ## What is published and what is written -/

/-- With folders in the options that do not lead up, a published path leads up exactly when a page
that did not fail has a language that does. When no document on the disk has such a language, and no
document in the published folder is named like the folder above, then whatever the command does it
changes files below its output folder only. -/
theorem publish_confined (hDisk : ActsAs disk view) (hFolders : StaysDown options.folders) :
    (∀ (site : Site) (context : Context) (publication : Publication),
      (site.publishIn options context).1 = .ok publication →
      ((∃ file ∈ publication.files, Climbs file.path) ↔ options.enabled = true ∧
        ∃ page ∈ site.pages, pageFault? site.host options context page = none ∧
          ∃ lang ∈ page.settings.languages, ClimbsBetween lang)) ∧
      ∀ (dir out : String) (json : Bool) (report : Report) (state : σ),
        DocumentsStayDown options (view state) →
        (∀ document ∈ siteDocuments ((view state).filesBelow dir), document.2 ≠ "..") →
        Confined out (view state)
          (view ((publish disk options dir out json).runOn report state).2) :=
  ⟨fun _ _ _ hOk => Site.publishIn_climbs_iff hFolders hOk,
    fun _ _ json report _ hLanguages hNames =>
      confined_publish hDisk hFolders json report hLanguages hNames⟩

/-- Publishing two documents without languages changes files in `out` only. -/
theorem twoDocuments_confined :
    StaysDown ({} : Options).folders ∧ DocumentsStayDown {} (twoDocuments "y") ∧
      Confined "out" (twoDocuments "y")
        ((publish FileTree.disk {} "sites" "out" false).runOn {} (twoDocuments "y")).2 := by
  have hFolders : StaysDown ({} : Options).folders := by decide
  have hNames : ∀ document ∈ siteDocuments ((twoDocuments "y").filesBelow "sites"),
      document.2 ≠ ".." := by
    rw [siteDocuments_twoDocuments (by decide)]
    decide
  have hLanguages : DocumentsStayDown {} (twoDocuments "y") := by
    intro place text site _ hText hSite _
    have hEntry : (place, Entry.file text) ∈ (twoDocuments "y").entries := by
      cases place with
      | nil => cases hText
      | cons name names =>
          obtain ⟨before, after, hEntries, -⟩ := List.lookup_eq_some_iff.1 hText
          rw [hEntries]
          exact List.mem_append_right _ List.mem_cons_self
    have hTexts : place = ["sites", "a", "x.site.json"] ∧ text = (onePage "1").compact ∨
        place = ["sites", "b", "y.site.json"] ∧ text = (onePage "2").compact := by
      simpa [twoDocuments] using hEntry
    rcases hTexts with ⟨-, rfl⟩ | ⟨-, rfl⟩
    · obtain rfl := Except.ok.inj ((read_onePage (by decide)).symm.trans hSite)
      decide
    · obtain rfl := Except.ok.inj ((read_onePage (by decide)).symm.trans hSite)
      decide
  exact ⟨hFolders, hLanguages, (publish_confined actsAs_tree hFolders).2 "sites" "out" false {}
    (twoDocuments "y") hLanguages hNames⟩

/-- A language that leads up puts a double dot into a published path, and the file is written
outside the output folder. -/
theorem publish_not_confined :
    (¬ ∀ (options : Options) (site : Site) (context : Context) (publication : Publication),
      StaysDown options.folders → (site.publishIn options context).1 = .ok publication →
      ∀ file ∈ publication.files, ¬ Climbs file.path) ∧
      ¬ ∀ (options : Options) (tree : FileTree) (dir out : String),
        StaysDown options.folders →
        (∀ document ∈ siteDocuments (tree.filesBelow dir), document.2 ≠ "..") →
        Confined out tree ((publish FileTree.disk options dir out false).runOn {} tree).2 := by
  have hFolders : StaysDown ({} : Options).folders := by decide
  constructor
  · intro h
    exact h {} upSite _ _ hFolders (publishIn_upSite []) upFile List.mem_cons_self (by decide)
  · intro h
    have hNames : ∀ document ∈ siteDocuments (upTree.filesBelow "sites"), document.2 ≠ ".." := by
      rw [siteDocuments_upTree]
      decide
    have hConfined := h {} upTree "sites" "out" hFolders hNames
    obtain ⟨documents, publications, after, hDocuments, hEach, hRun, hStores⟩ :=
      @runOn_publish _ _ _ {} "out" actsAs_tree "sites" upTree {} rfl publishes_upTree
        fun _ _ hDocuments hEach =>
          (stored_upTree hDocuments hEach).imp fun _ hStored => hStored.1
    obtain ⟨next, hNext, hFile⟩ := stored_upTree hDocuments hEach
    obtain rfl : next = after := hNext.eq hStores
    rw [hRun] at hConfined
    rcases hConfined.below _ _ hFile with hOld | ⟨root, hRoot, hBelow⟩
    · exact absurd hOld (by decide +kernel)
    · have hPlain : ∀ name ∈ Text.cutText '/' "out", IsPlain name := by
        rw [show Text.cutText '/' "out" = ["out"] by decide, List.forall_mem_singleton]
        decide
      have hPlace := follow_plain hPlain hRoot
      have hStart : next.start "out" = ["home"] := hStores.grows.working
      rw [hStart] at hPlace
      rw [← hPlace] at hBelow
      exact absurd hBelow (by decide)

end Cli

end PagePress
