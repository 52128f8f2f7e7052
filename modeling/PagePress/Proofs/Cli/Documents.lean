import Mathlib.Data.List.Find
import PagePress.Proofs.Cli.Folders
import PagePress.Proofs.TreeCosts

/-!
# Publishing one document

A command on one file reads its options, looks at the name of the file, reads the document in it and
publishes the site, and only then does anything that can be seen. So when the options or the
document cannot be decoded, or the site is not published, there is a failure on the error output and
nothing else: no file has changed and nothing was printed. Otherwise the release is printed, or its
files are stored. The random numbers of a disk go into the texts of files; whether publishing fails
does not depend on them.

## Main results

* `Site.publishIn_of_error` — publishing a site fails in all contexts or in none.
* `runOn_perform` — the command is publishing without effects and then the delivery of the result.
* `publish_document` — what is on the disk and on the output in the end.
-/

namespace PagePress

open Publisher FilePath Cli.FileTree

/-! ## Failing to publish -/

/-- A page renders in all contexts or in none. -/
theorem rendered?_any (host : Host) (context other : Context) :
    rendered? host context = rendered? host other := by
  funext page
  have hCosts := Markup.costs_renderTree host.resultType page.component
  rw [rendered?, rendered?, renderFault?, renderFault?, hCosts.fault?_eq, hCosts.fault?_eq]

/-- Publishing a site fails in all contexts or in none, and with one error. -/
theorem Site.publishIn_of_error {site : Site} {options : Options} {context : Context}
    {error : PublishError} (h : (site.publishIn options context).1 = .error error)
    (other : Context) : (site.publishIn options other).1 = .error error := by
  have hSame : (publishPages site.host options site.pages context).1 =
      (publishPages site.host options site.pages other).1 := by
    rw [publishPages_fst, publishPages_fst, rendered?_any site.host context other]
  unfold Site.publishIn at h ⊢
  split at h
  · cases h
  · rename_i fault draft hPass
    rw [hPass] at hSame
    split
    · rename_i hOther
      rw [hOther] at hSame
      cases hSame
    · rename_i otherFault _ hOther
      rw [hOther] at hSame
      cases hSame
      exact h

namespace Cli

/-! ## Publishing without effects -/

/-- The options in the text of an options file, if there is one. -/
def optionsIn : Option String → Except PublishError Options
  | none => .ok {}
  | some text => (Options.read text).mapError .invalidOptions

/-- What a document is published to, with some options and random numbers. -/
def publishedWith (options : Options) (text : String) (random : List UInt32) :
    Except PublishError Publication := do
  let site ← siteIn text
  (site.publishIn options (freshContext options random)).1

/-- What a document is published to, with the options of an options file and some random numbers. -/
def published (optionsText : Option String) (text : String) (random : List UInt32) :
    Except PublishError Publication := do
  publishedWith (← optionsIn optionsText) text random

/-- A document is refused: its options or the document cannot be decoded, or publishing fails. -/
def Refuses (optionsText : Option String) (text : String) (error : PublishError) : Prop :=
  ∃ random, published optionsText text random = .error error

/-- A document is published, with some random numbers. -/
def Releases (optionsText : Option String) (text : String) (publication : Publication) : Prop :=
  ∃ random, published optionsText text random = .ok publication

variable {optionsText : Option String} {text : String} {error : PublishError}

/-- A document that is refused with some random numbers is refused with all. -/
theorem Refuses.published_eq (h : Refuses optionsText text error) (random : List UInt32) :
    published optionsText text random = .error error := by
  obtain ⟨other, hError⟩ := h
  unfold published publishedWith at hError ⊢
  cases hOptions : optionsIn optionsText with
  | error fault =>
      rw [hOptions] at hError
      exact hError
  | ok options =>
      rw [hOptions] at hError
      cases hSite : siteIn text with
      | error fault =>
          rw [hSite] at hError
          exact hError
      | ok site =>
          rw [hSite] at hError
          exact Site.publishIn_of_error hError _

/-! ## Reading -/

section

variable {σ α : Type} {disk : Disk (StateM σ)} {view : σ → FileTree} {tree next : FileTree}
  {config : Option String} {path out : String} {state : σ} {files : List (String × String)}

/-- The text of the options file of a command, when none is named or it can be read. -/
inductive OptionsText (tree : FileTree) : Option String → Option String → Prop
  | none : OptionsText tree none none
  | file {path text : String} (hRead : tree.read path = .ok text) :
      OptionsText tree (some path) (some text)

/-- Reading options changes nothing, and fails when they cannot be decoded. -/
theorem runOn_readOptions (hDisk : ActsAs disk view)
    (hOptions : OptionsText (view state) config optionsText) (report : Report) :
    ∃ after, (readOptions disk config).runOn report state =
        (orStop "" (optionsIn optionsText)).runOn report after ∧ view after = view state := by
  cases hOptions with
  | none => exact ⟨state, rfl, rfl⟩
  | @file path text hRead =>
      obtain ⟨after, hRun, hAfter⟩ := runOn_readFile hDisk hRead "" report
      refine ⟨after, ?_, hAfter⟩
      rw [readOptions, Step.runOn_bind_of_ok hRun, optionsIn]
      cases Options.read text <;> rfl

/-! ## Delivering -/

/-- What a command does with a publication. -/
def deliver (disk : Disk (StateM σ)) (path out : String) (json : Bool) (publication : Publication) :
    Step (StateM σ) Unit := do
  tellNotices publication.notices
  if json then
    printLine publication.release.toJson.wide
  else
    writeFiles disk out path publication.files
  tellCount json publication.files.length

theorem publishDocument_bind_tellCount (disk : Disk (StateM σ)) (options : Options)
    (path out : String) (json : Bool) :
    publishDocument disk options path out json >>= tellCount json =
      readSite disk path >>= fun site => ask (disk.random (randomNeed site)) >>= fun random =>
        orStop path (site.publishIn options (freshContext options random)).1 >>=
          deliver disk path out json := by
  cases json with
  | true =>
      simp only [publishDocument, bind_assoc, pure_bind, if_true]
      rfl
  | false =>
      simp only [publishDocument, bind_assoc, pure_bind, Bool.false_eq_true, if_false]
      rfl

/-- Publishing a document is publishing without effects, with the random numbers of the disk, and
then the delivery of the result. -/
theorem runOn_publishDocument_eq (hDisk : ActsAs disk view) (options : Options)
    (hRead : (view state).read path = .ok text) (out : String) (json : Bool) (report : Report) :
    ∃ random after, view after = view state ∧
      (publishDocument disk options path out json >>= tellCount json).runOn report state =
        (orStop path (publishedWith options text random) >>=
          deliver disk path out json).runOn report after := by
  obtain ⟨loaded, hLoad, hLoaded⟩ := runOn_readSite_eq hDisk hRead report
  rw [publishDocument_bind_tellCount]
  cases hSite : siteIn text with
  | error fault =>
      refine ⟨[], loaded, hLoaded, ?_⟩
      rw [Step.runOn_bind, hLoad, publishedWith, hSite]
      rfl
  | ok site =>
      rw [hSite, runOn_orStop] at hLoad
      have hView := hDisk.random (randomNeed site) loaded
      rcases hNumbers : ((disk.random (randomNeed site)).run loaded : _ × σ) with ⟨random, now⟩
      rw [hNumbers] at hView
      refine ⟨random, now, Eq.trans hView hLoaded, ?_⟩
      rw [Step.runOn_bind_of_ok hLoad, Step.runOn_bind_of_ok (Step.runOn_ask_of_run hNumbers),
        publishedWith, hSite]
      rfl

/-- A command on a file reads its options, looks at the name of the file, and publishes it. -/
theorem runOn_perform_file (hDisk : ActsAs disk view)
    (hOptions : OptionsText (view state) config optionsText)
    (hRead : (view state).read path = .ok text) (out : String) (json : Bool) :
    ∃ after, view after = view state ∧
      (perform disk ⟨config, .publish path out json⟩).runOn {} state =
        (orStop "" (optionsIn optionsText) >>= fun options =>
          if (siteStem? path).isNone then stopWith (.notASite path)
          else publishDocument disk options path out json >>= tellCount json).runOn {} after := by
  obtain ⟨opened, hOpen, hOpened⟩ := runOn_readOptions hDisk hOptions {}
  cases hFound : optionsIn optionsText with
  | error fault =>
      refine ⟨opened, hOpened, ?_⟩
      rw [perform, Step.runOn_bind, hOpen, hFound]
      rfl
  | ok options =>
      rw [hFound, runOn_orStop] at hOpen
      obtain ⟨asked, hKind, hAsked⟩ := (hDisk.kind? path).exists_run
        (congrArg (fun kind => (kind, view opened)) (kind?_of_read (hOpened ▸ hRead)))
      refine ⟨asked, hAsked.trans hOpened, ?_⟩
      rw [perform, Step.runOn_bind_of_ok hOpen]
      dsimp only
      rw [publish, Step.runOn_bind_of_ok (Step.runOn_ask_of_run hKind)]
      cases (siteStem? path).isNone <;> rfl

/-- A file that is no document by its name is not published. -/
theorem runOn_perform_notASite (hDisk : ActsAs disk view)
    (hOptions : OptionsText (view state) config optionsText)
    (hRead : (view state).read path = .ok text) (hName : (siteStem? path).isSome = false)
    (out : String) (json : Bool) :
    ∃ line after, view after = view state ∧
      (perform disk ⟨config, .publish path out json⟩).runOn {} state =
        ((.error (), ⟨"", [line]⟩), after) := by
  obtain ⟨after, hAfter, hRun⟩ := runOn_perform_file hDisk hOptions hRead out json
  have hNone : (siteStem? path).isNone = true := by simpa using hName
  rw [hRun, hNone]
  cases optionsIn optionsText with
  | error fault => exact ⟨_, after, hAfter, rfl⟩
  | ok options => exact ⟨_, after, hAfter, rfl⟩

/-- The command on a document is publishing without effects and then the delivery. -/
theorem runOn_perform (hDisk : ActsAs disk view)
    (hOptions : OptionsText (view state) config optionsText)
    (hRead : (view state).read path = .ok text) (hName : (siteStem? path).isSome = true)
    (out : String) (json : Bool) :
    ∃ random context after, view after = view state ∧
      (perform disk ⟨config, .publish path out json⟩).runOn {} state =
        (orStop context (published optionsText text random) >>=
          deliver disk path out json).runOn {} after := by
  obtain ⟨asked, hAsked, hRun⟩ := runOn_perform_file hDisk hOptions hRead out json
  have hNamed : (siteStem? path).isNone = false := by simpa using hName
  rw [hRun, hNamed]
  cases hFound : optionsIn optionsText with
  | error fault =>
      refine ⟨[], "", asked, hAsked, ?_⟩
      rw [published, hFound]
      rfl
  | ok options =>
      obtain ⟨random, after, hAfter, hPublish⟩ :=
        runOn_publishDocument_eq hDisk options (hAsked ▸ hRead) out json {}
      refine ⟨random, path, after, hAfter.trans hAsked, ?_⟩
      rw [published, hFound]
      exact hPublish

theorem run_of_runOn {invocation : Invocation} {result : Except Unit Unit} {report : Report}
    {after : σ} (h : (perform disk invocation).runOn {} state = ((result, report), after)) :
    (run disk invocation).run state = ((exitCode result, report), after) := by
  have hPerform : ((perform disk invocation).run.run {}).run state = ((result, report), after) := h
  rw [run, StateT.run_bind, hPerform]
  rfl

/-- A printed release leaves the disk as it is. -/
theorem runOn_deliver_json (path out : String) (publication : Publication) (report : Report)
    (state : σ) : (deliver disk path out true publication).runOn report state =
      ((.ok (), { report.tells (publication.notices.map .notice) with
        output := report.output ++ publication.release.toJson.wide ++ "\n" }), state) := by
  rw [deliver, Step.runOn_bind_of_ok (runOn_tellNotices publication.notices report state)]
  rfl

/-- Files that can be stored are stored, and nothing is printed. -/
theorem runOn_deliver_files (hDisk : ActsAs disk view) (path : String) {publication : Publication}
    (h : StoresEach (view state) (targets out publication) next) (report : Report) :
    ∃ after, (deliver disk path out false publication).runOn report state =
        ((.ok (), report.tells (told out publication ++ [.published publication.files.length])),
          after) ∧
      view after = next := by
  obtain ⟨after, hWritten, hAfter⟩ := runOn_writeFiles hDisk out path publication.files
    (report.tells (publication.notices.map .notice)) h
  refine ⟨after, ?_, hAfter⟩
  rw [deliver, Step.runOn_bind_of_ok (runOn_tellNotices publication.notices report state)]
  simp only [Bool.false_eq_true, if_false]
  rw [Step.runOn_bind_of_ok hWritten, Report.tells_tells, ← told, ← Report.tells_tells]
  exact Step.runOn_tell _ _ after

/-! ## Files -/

/-- The text of the last of some files with a path. -/
def lastText (files : List (String × String)) (path : String) : Option String :=
  (files.reverse.find? fun file => file.1 = path).map Prod.snd

/-- Files can be stored one after the other, and those under different paths do not meet. -/
structure NoConflict (tree : FileTree) (files : List (String × String)) : Prop where
  stored : ∃ next, StoresEach tree files next
  apart : ∀ next, StoresEach tree files next → ∀ first ∈ files, ∀ second ∈ files,
    next.resolve first.1 = next.resolve second.1 → first.1 = second.1

/-- A tree after some files were stored: each path has the text of the last file under it, and all
other files are as they were. -/
structure Holds (files : List (String × String)) (tree next : FileTree) : Prop where
  own : ∀ file ∈ files, ∃ text, lastText files file.1 = some text ∧ next.read file.1 = .ok text
  other : ∀ place, (∀ file ∈ files, next.resolve file.1 ≠ .ok place) → ∀ text,
    (next.lookup place = some (.file text) ↔ tree.lookup place = some (.file text))

/-- Where no different paths meet, the last file that leads to the place of a path is the last one
under that path. -/
theorem textAt_eq_lastText {file : String × String} {place : Place}
    (hApart : ∀ other ∈ files, next.resolve other.1 = next.resolve file.1 → other.1 = file.1)
    (hPlace : next.resolve file.1 = .ok place) :
    textAt next files place = lastText files file.1 := by
  have hSame : ∀ other ∈ files.reverse,
      leadsTo next other.1 place = decide (other.1 = file.1) := by
    intro other hOther
    rw [Bool.eq_iff_iff, leadsTo_iff, decide_eq_true_eq]
    constructor
    · exact fun hLeads => hApart other (List.mem_reverse.1 hOther) (hLeads.trans hPlace.symm)
    · exact fun hPath => hPath ▸ hPlace
  rw [textAt, lastText, List.find?_congr hSame]

/-- Files under plain paths do not meet below a folder. -/
theorem noConflict_of_isPlainPath {publication : Publication}
    (hPlain : ∀ file ∈ publication.files, IsPlainPath file.path)
    (hStored : ∃ next, StoresEach tree (targets out publication) next) :
    NoConflict tree (targets out publication) := by
  refine ⟨hStored, fun next hStores => ?_⟩
  have hPlace : ∀ file ∈ publication.files, ∀ place,
      next.resolve (target out file.path) = .ok place → ∃ root,
        next.follow (next.start out) (Text.cutText '/' out) = .ok root ∧
          root ++ Text.cutText '/' (belowRoot file.path) = place := by
    intro file hFile place hResolve
    rw [target_eq] at hResolve
    obtain ⟨root, hRoot, hBelow⟩ := exists_root_of_resolve (isAbsolute_belowRoot _) hResolve
    exact ⟨root, hRoot, follow_plain (hPlain file hFile).cutText.2 hBelow⟩
  intro first hFirst second hSecond hMeet
  obtain ⟨place, hResolve⟩ := hStores.resolve first hFirst
  have hOther := hMeet.symm.trans hResolve
  obtain ⟨file, hFile, rfl⟩ := List.mem_map.1 hFirst
  obtain ⟨other, hOtherFile, rfl⟩ := List.mem_map.1 hSecond
  obtain ⟨root, hRoot, hOwn⟩ := hPlace file hFile place hResolve
  obtain ⟨otherRoot, hOtherRoot, hSame⟩ := hPlace other hOtherFile place hOther
  obtain rfl : root = otherRoot := Except.ok.inj (hRoot.symm.trans hOtherRoot)
  have hNames := List.append_cancel_left (hOwn.trans hSame.symm)
  rw [target_eq, target_eq, Text.cutText_inj '/' hNames]

theorem NoConflict.holds (h : NoConflict tree files) (hStores : StoresEach tree files next) :
    Holds files tree next := by
  constructor
  · intro file hFile
    obtain ⟨place, hPlace⟩ := hStores.resolve file hFile
    obtain ⟨text, hText⟩ := textAt_isSome hFile hPlace
    have hLast := textAt_eq_lastText
      (fun other hOther hMeet => h.apart next hStores other hOther file hFile hMeet) hPlace
    exact ⟨text, hLast ▸ hText,
      read_of_resolve hPlace ((hStores.text_iff place text).2 (.inl hText))⟩
  · intro place hNone text
    have hNoText : textAt next files place = none := by
      cases hText : textAt next files place with
      | none => rfl
      | some found =>
          obtain ⟨file, hFile, hPlace, -⟩ := exists_of_textAt hText
          exact absurd hPlace (hNone file hFile)
    rw [hStores.text_iff, hNoText]
    simp

/-! ## The command on a document -/

/-- A command fails with some lines, no file has changed, and nothing was printed. -/
def FailsUnseen (disk : Disk (StateM σ)) (view : σ → FileTree) (invocation : Invocation)
    (state : σ) (lines : List Line) : Prop :=
  ∃ after, (run disk invocation).run state = ((1, ⟨"", lines⟩), after) ∧ view after = view state

/-- Publishing a file, on a disk that acts as a tree. When the file is no document by its name, the
options or the document cannot be decoded, or publishing fails, the command fails and nothing else:
no file has changed, and nothing was printed. Else the release is printed and no file has changed;
or nothing is printed, and of the files on the disk exactly those of the publication below the
output folder have changed, each to the last text that was published under its path. -/
theorem publish_document (hDisk : ActsAs disk view)
    (hOptions : OptionsText (view state) config optionsText)
    (hRead : (view state).read path = .ok text) (out : String) (json : Bool) :
    ((siteStem? path).isSome = false →
        ∃ line, FailsUnseen disk view ⟨config, .publish path out json⟩ state [line]) ∧
      ((siteStem? path).isSome = true →
        (∀ error, Refuses optionsText text error → ∃ context,
          FailsUnseen disk view ⟨config, .publish path out json⟩ state
            [.failure error context]) ∧
        ((∃ publication, Releases optionsText text publication) →
          (json = false → ∀ publication, Releases optionsText text publication →
            NoConflict (view state) (targets out publication)) →
          ∃ publication report after, Releases optionsText text publication ∧
            (run disk ⟨config, .publish path out json⟩).run state = ((0, report), after) ∧
            if json then
              view after = view state ∧ report.output = publication.release.toJson.wide ++ "\n"
            else
              report.output = "" ∧
                Holds (targets out publication) (view state) (view after))) := by
  constructor
  · intro hName
    obtain ⟨line, after, hAfter, hRun⟩ :=
      runOn_perform_notASite hDisk hOptions hRead hName out json
    exact ⟨line, after, run_of_runOn hRun, hAfter⟩
  intro hName
  obtain ⟨random, context, after, hAfter, hRun⟩ :=
    runOn_perform hDisk hOptions hRead hName out json
  constructor
  · intro error hRefuses
    rw [hRefuses.published_eq random, Step.runOn_bind, runOn_orStop] at hRun
    exact ⟨context, after, run_of_runOn hRun, hAfter⟩
  · rintro ⟨other, hReleases⟩ hConflict
    cases hPublished : published optionsText text random with
    | error error =>
        obtain ⟨otherRandom, hOther⟩ := hReleases
        cases hOther.symm.trans (Refuses.published_eq ⟨random, hPublished⟩ otherRandom)
    | ok publication =>
        have hReleased : Releases optionsText text publication := ⟨random, hPublished⟩
        rw [hPublished, Step.runOn_bind, runOn_orStop] at hRun
        cases json with
        | true =>
            dsimp only at hRun
            rw [runOn_deliver_json] at hRun
            refine ⟨publication, _, after, hReleased, run_of_runOn hRun, ?_⟩
            exact ⟨hAfter, by simp⟩
        | false =>
            obtain ⟨next, hStores⟩ := (hConflict rfl publication hReleased).stored
            obtain ⟨last, hDelivered, rfl⟩ :=
              runOn_deliver_files hDisk path (hAfter.symm ▸ hStores) {}
            refine ⟨publication, _, last, hReleased, run_of_runOn (hRun.trans hDelivered), ?_⟩
            exact ⟨rfl, (hConflict rfl publication hReleased).holds hStores⟩

end

/-- A document of one page in two languages, one of them twice. -/
def languagePage : Json :=
  .object [("pages", .array [.object [("name", .string "a"),
    ("settings", .object [("silexLanguagesList", .string "en, fr, en")])]])]

/-- The site in it. -/
def languageSite : Site where
  pages := [⟨"a", { languagesList := some "en, fr, en" }, .leaf {}⟩]

/-- The file of its page in a language. -/
def languageFile (lang : String) : PublishedFile where
  path := "/a-" ++ lang ++ ".html"
  type := .html
  content :=
    "---\npermalink: \"/a/index.html\"\nlang: \"" ++ lang ++ "\"\ncollection: \"a\"\n\n---\n"

/-- The text of an options file. -/
def noBuster : String := "\x7b\"cacheBuster\": \"none\"\x7d"

/-- What it is published to. -/
def languageFiles : Publication :=
  ⟨[languageFile "en", languageFile "fr", languageFile "en"], []⟩

/-- The document in a folder with an options file. -/
def languageTree : FileTree where
  working := ["home"]
  entries := [(["home"], .folder), (["home", "o.json"], .file noBuster),
    (["home", "s.site.json"], .file languagePage.compact)]

theorem published_languagePage (random : List UInt32) :
    published (some noBuster) languagePage.compact random = .ok languageFiles := by
  have hOptions : optionsIn (some noBuster) = .ok { cacheBuster := .none } := by
    with_unfolding_all rfl
  have hText : Json.read languagePage.compact = .ok languagePage := by with_unfolding_all rfl
  have hSite : siteIn languagePage.compact = .ok languageSite := by
    rw [siteIn, Site.read, hText]
    rfl
  rw [published, hOptions]
  show publishedWith { cacheBuster := .none } languagePage.compact random = _
  rw [publishedWith, hSite]
  cases random <;> rfl

theorem noConflict_languageFiles : NoConflict languageTree (targets "out" languageFiles) := by
  refine noConflict_of_isPlainPath ?_ ?_
  · have hCut : Text.cutText '/' "/a-en.html" = "" :: "a-en.html" :: [] ∧
        Text.cutText '/' "/a-fr.html" = "" :: "a-fr.html" :: [] := by decide
    have hEnglish : IsPlainPath (languageFile "en").path := ⟨_, _, hCut.1, by decide⟩
    have hFrench : IsPlainPath (languageFile "fr").path := ⟨_, _, hCut.2, by decide⟩
    show ∀ file ∈ [languageFile "en", languageFile "fr", languageFile "en"], IsPlainPath file.path
    simp only [List.forall_mem_cons]
    exact ⟨hEnglish, hFrench, hEnglish, List.forall_mem_nil _⟩
  · have hStored : (storeAll languageTree (targets "out" languageFiles)).isSome = true := by
      decide +kernel
    obtain ⟨next, hNext⟩ := Option.isSome_iff_exists.1 hStored
    exact ⟨next, storeAll_eq_some_iff.1 hNext⟩

/-- The page is there once in each language. -/
theorem publish_languagePage :
    OptionsText languageTree (some "o.json") (some noBuster) ∧
      languageTree.read "s.site.json" = .ok languagePage.compact ∧
      (siteStem? "s.site.json").isSome = true ∧ ∃ report after,
        (run FileTree.disk ⟨some "o.json", .publish "s.site.json" "out" false⟩).run languageTree =
          ((0, report), after) ∧
        after.read "out/a-en.html" = .ok (languageFile "en").content ∧
        after.read "out/a-fr.html" = .ok (languageFile "fr").content := by
  have hOptions : OptionsText languageTree (some "o.json") (some noBuster) := .file rfl
  have hRead : languageTree.read "s.site.json" = .ok languagePage.compact := rfl
  have hName : (siteStem? "s.site.json").isSome = true := by decide
  have hOnly : ∀ publication, Releases (some noBuster) languagePage.compact publication →
      publication = languageFiles := by
    rintro publication ⟨random, hOk⟩
    exact Except.ok.inj (hOk.symm.trans (published_languagePage random))
  have hDocument :=
    @publish_document _ _ _ _ _ _ _ languageTree actsAs_tree hOptions hRead "out" false
  obtain ⟨-, hPublished⟩ := hDocument.2 hName
  obtain ⟨publication, report, after, hReleased, hRun, -, hHolds⟩ :=
    hPublished ⟨_, [], published_languagePage []⟩
      fun _ publication hReleased => hOnly publication hReleased ▸ noConflict_languageFiles
  obtain rfl := hOnly publication hReleased
  obtain ⟨english, hEnglish, hReadEnglish⟩ :=
    hHolds.own ("out/a-en.html", (languageFile "en").content) (by decide)
  obtain ⟨french, hFrench, hReadFrench⟩ :=
    hHolds.own ("out/a-fr.html", (languageFile "fr").content) (by decide)
  obtain rfl : (languageFile "en").content = english :=
    Option.some.inj ((by decide : lastText _ _ = _).symm.trans hEnglish)
  obtain rfl : (languageFile "fr").content = french :=
    Option.some.inj ((by decide : lastText _ _ = _).symm.trans hFrench)
  exact ⟨hOptions, hRead, hName, report, after, hRun, hReadEnglish, hReadFrench⟩

end Cli

end PagePress
