import PagePress.Proofs.Numbering.Assembly
import PagePress.Proofs.PageLocal
import PagePress.Proofs.Publication.Paths

/-!
# What a page becomes

A rendered page becomes one template, or one for each of its languages, and beside each a data file
when its query has any text. It fails when the host does not know one of the data sources of that
query, and else when its front matter does not compile. Neither depends on what was rendered, nor
on how far the pass has come.

## Main results

* `pageFiles_fault?` — when a page fails, and with which error.
* `pageFiles_returns` — the paths and types of the files that a page becomes.
-/

namespace PagePress

open Pass (Returns)

/-! ## Queries -/

/-- Whether the query of a page has a payload with text. -/
def hasData (host : Host) (page : Page) : Bool :=
  (host.pageQuery (Assembly.withSharingStates page)).entries.any fun entry =>
    !Text.isBlankText entry.2

/-- The first data source with a payload with text in the query of a page that the host does not
know. -/
def unknownSource? (host : Host) (page : Page) : Option String :=
  ((host.pageQuery (Assembly.withSharingStates page)).entries.find? fun entry =>
    !Text.isBlankText entry.2 && (host.dataSource entry.1).isNone).map Prod.fst

/-- The fault of the front matter of a page; no language changes it. -/
def headerFault? (options : Options) (context : Context) (page : Page) : Option PublishError :=
  (frontMatter options page.settings (pageSlug page.name) page.component.element (some page.name)
    none).fault? context

/-- The fault of the files of a page. -/
def assemblyFault? (host : Host) (options : Options) (context : Context) (page : Page) :
    Option PublishError :=
  ((unknownSource? host page).map PublishError.unknownDataSource).or
    (headerFault? options context page)

theorem headerFault?_isPageLocal {options : Options} {context : Context} {page : Page}
    {error : PublishError} (h : headerFault? options context page = some error) :
    error.isPageLocal = true := by
  obtain ⟨next, hRun⟩ := Pass.fault?_eq_some h
  exact frontMatter_raises _ _ _ _ _ _ _ _ _ hRun

/-- The front matter fails alike in every language and everywhere in a pass. -/
theorem frontMatter_fault? (options : Options) {context later : Context}
    (hLater : later.Follows context) (page : Page) (lang : Option String) :
    (frontMatter options page.settings (pageSlug page.name) page.component.element
      (some page.name) lang).fault? later = headerFault? options context page :=
  Pairing.InStep.fault?_eq hLater (inStep_frontMatter options page.settings _ _ _ none lang)

theorem isEmpty_pageQuery (host : Host) (page : Page) :
    (Assembly.pageQuery host page).isEmpty = !hasData host page := by
  rw [Bool.eq_iff_iff]
  simp [Assembly.pageQuery, OrderedMap.filter, OrderedMap.isEmpty, hasData]

theorem find?_pageQuery (host : Host) (page : Page) :
    ((Assembly.pageQuery host page).entries.find? fun entry =>
      (host.dataSource entry.1).isNone).map Prod.fst = unknownSource? host page := by
  simp only [Assembly.pageQuery, OrderedMap.filter, List.find?_filter, unknownSource?,
    Bool.decide_and, Bool.decide_eq_true]

/-! ## Data files -/

namespace DataFile

theorem fetchSource_ok {ε : Type} (options : Options) (source : DataSource) (query : String)
    (context : Context) : ∃ text next,
      (fetchSource (ε := ε) options source query).runIn context = (.ok text, next) := by
  have hNumber : ∃ number next,
      (busterNumber? (ε := ε) options.cacheBuster).runIn context = (.ok number, next) := by
    cases options.cacheBuster with
    | none => exact ⟨_, _, rfl⟩
    | build => exact ⟨_, _, rfl⟩
    | random =>
        rw [busterNumber?, Pass.runIn_bind, drawSalt, Pass.runIn_bind, Pass.runIn_get]
        cases hSalts : context.salts with
        | nil => exact ⟨some context.buildId, context, by simp only [hSalts]; rfl⟩
        | cons salt salts =>
            exact ⟨some (salt % saltLimit), { context with salts := salts },
              by simp only [hSalts]; rfl⟩
  obtain ⟨number, next, hRun⟩ := hNumber
  unfold fetchSource
  cases source.kind with
  | other => exact ⟨_, _, rfl⟩
  | graphql =>
      simp only [bustedUrl, Pass.runIn_bind, hRun]
      cases number with
      | none => exact ⟨_, _, rfl⟩
      | some number => exact ⟨_, _, rfl⟩

/-- The requests of a page fail with the first data source that is not known. -/
theorem fetchAll_fault? (options : Options) (dataSource : String → Option DataSource)
    (entries : List (String × String)) : ∀ context,
    (fetchAll options dataSource entries).fault? context =
      ((entries.find? fun entry => (dataSource entry.1).isNone).map Prod.fst).map
        PublishError.unknownDataSource := by
  induction entries with
  | nil => exact fun context => rfl
  | cons entry rest ih =>
      intro context
      obtain ⟨id, query⟩ := entry
      unfold fetchAll
      cases hSource : dataSource id with
      | none =>
          simp only [List.find?_cons, hSource, Option.isNone_none]
          rfl
      | some source =>
          obtain ⟨text, next, hRun⟩ :=
            fetchSource_ok (ε := PublishError) options source query context
          simp only [List.find?_cons, hSource, Option.isNone_some]
          rw [Pass.fault?_bind_of_ok hRun, Pass.fault?_bind_pure]
          exact ih next

end DataFile

namespace Assembly

theorem pageDataFile?_fault? (host : Host) (options : Options) (page : Page) (context : Context) :
    (pageDataFile? host options page).fault? context =
      (unknownSource? host page).map PublishError.unknownDataSource := by
  rw [← find?_pageQuery, ← DataFile.fetchAll_fault? options host.dataSource _ context]
  unfold pageDataFile?
  cases hEmpty : (pageQuery host page).isEmpty with
  | true =>
      have hEntries : (pageQuery host page).entries = [] := by
        simpa [OrderedMap.isEmpty] using hEmpty
      simp only [hEmpty, hEntries, ↓reduceIte]
      rfl
  | false =>
      simp only [hEmpty, Bool.false_eq_true, ↓reduceIte, dataFile]
      rw [Pass.fault?_bind_pure, Pass.fault?_bind_pure]

theorem pageDataFile?_returns (host : Host) (options : Options) (page : Page) :
    Returns (fun data => data.isSome = hasData host page ∧
        ∀ file ∈ data, file.path = sidecarPath options (pageSlug page.name))
      (pageDataFile? host options page) := by
  unfold pageDataFile?
  simp only [isEmpty_pageQuery]
  cases hasData host page with
  | false => exact Returns.pure ⟨rfl, by simp⟩
  | true =>
      refine (Returns.any _).bind fun content _ => Returns.pure ⟨rfl, ?_⟩
      intro file hFile
      obtain rfl := Option.mem_some_iff.1 hFile
      exact dataPath_eq options _

/-! ## Failures -/

theorem pageContent_fault? (options : Options) {context later : Context}
    (hLater : later.Follows context) (page : Page) (lang : Option String) (content : String) :
    (pageContent options page lang content).fault? later = headerFault? options context page := by
  unfold pageContent
  rw [Pass.fault?_bind_pure]
  exact frontMatter_fault? options hLater page lang

theorem variant_fault? (options : Options) {context later : Context}
    (hLater : later.Follows context) (page : Page) (file : PublishedFile)
    (data : Option PublishedFile) (lang : String) :
    (variant options page file data lang).fault? later = headerFault? options context page := by
  unfold variant
  rw [Pass.fault?_bind_pure]
  exact pageContent_fault? options hLater page (some lang) file.content

theorem variant_follows (options : Options) (page : Page) (file : PublishedFile)
    (data : Option PublishedFile) (lang : String) (context : Context) :
    ((variant options page file data lang).runIn context).2.Follows context := by
  have hSame : AlikeFile (Pairing.ofContexts context context) False 0 file file :=
    ⟨rfl, rfl, False.elim⟩
  have hData : Option.Rel (AlikeFile (Pairing.ofContexts context context) False 0) data data := by
    cases data with
    | none => exact .none
    | some data => exact .some ⟨rfl, rfl, False.elim⟩
  exact Pairing.InStep.follows (inStep_variant page hSame hData lang)

theorem pageDataFile?_follows (host : Host) (options : Options) (page : Page)
    (context : Context) :
    ((pageDataFile? host options page).runIn context).2.Follows context :=
  Pairing.InStep.follows (inStep_pageDataFile? (Q := False) host page False.elim)

/-- With languages a page fails in the first of them or in none. -/
theorem variants_fault? (options : Options) {context : Context} (page : Page)
    (file : PublishedFile) (data : Option PublishedFile) (langs : List String) :
    ∀ lang later, later.Follows context →
      (variants options page file data (lang :: langs)).fault? later =
        headerFault? options context page := by
  induction langs with
  | nil =>
      intro lang later hLater
      rw [← variant_fault? options hLater page file data lang]
      exact Pass.fault?_bind_pure _ _ _
  | cons next langs ih =>
      intro lang later hLater
      have hVariant := variant_fault? options hLater page file data lang
      rw [variants]
      cases hHeader : headerFault? options context page with
      | some error => exact Pass.fault?_bind_of_error (hVariant.trans hHeader)
      | none =>
          obtain ⟨first, middle, hRun⟩ := Pass.fault?_eq_none (hVariant.trans hHeader)
          have hMiddle := variant_follows options page file data lang later
          rw [hRun] at hMiddle
          rw [Pass.fault?_bind_of_ok hRun, Pass.fault?_bind_pure, ← hHeader]
          exact ih next middle (hMiddle.trans hLater)

/-- Whether and how the files of a page fail is the same everywhere in a pass, whatever was
rendered. -/
theorem pageFiles_fault? (host : Host) (options : Options) {context later : Context}
    (hLater : later.Follows context) (page : Page) (file : PublishedFile) :
    (pageFiles host options page file).fault? later =
      assemblyFault? host options context page := by
  have hData := pageDataFile?_fault? host options page later
  unfold pageFiles assemblyFault?
  cases hUnknown : unknownSource? host page with
  | some id =>
      rw [hUnknown] at hData
      exact Pass.fault?_bind_of_error hData
  | none =>
      rw [hUnknown] at hData
      obtain ⟨data, middle, hRun⟩ := Pass.fault?_eq_none hData
      have hMiddle := pageDataFile?_follows host options page later
      rw [hRun] at hMiddle
      rw [Pass.fault?_bind_of_ok hRun]
      have hContext := hMiddle.trans hLater
      cases page.settings.languages with
      | nil =>
          rw [Pass.fault?_bind_pure]
          exact pageContent_fault? options hContext page none file.content
      | cons lang langs => exact variants_fault? options page file data langs lang middle hContext

/-! ## Files of a page -/

/-- The paths that a page is published at. -/
def outputPaths (host : Host) (options : Options) (page : Page) : List String :=
  (fileNames page).flatMap (filePaths options (hasData host page))

/-- What lies at the path of a template is a template. -/
def IsTypedByPath (options : Options) (file : PublishedFile) : Prop :=
  ∀ name, file.path = templatePath options name → file.type = .html

theorem isTypedByPath_of_html (options : Options) {file : PublishedFile} (h : file.type = .html) :
    IsTypedByPath options file :=
  fun _ _ => h

theorem isTypedByPath_of_sidecarPath {options : Options} {file : PublishedFile} {name : String}
    (h : file.path = sidecarPath options name) : IsTypedByPath options file :=
  fun other hOther => absurd (hOther.symm.trans h) (templatePath_ne_sidecarPath options other name)

/-- Files at some paths, templates at those of templates. -/
structure LieAt (options : Options) (paths : List String) (files : List PublishedFile) :
    Prop where
  paths : files.map PublishedFile.path = paths
  typed : ∀ file ∈ files, IsTypedByPath options file

theorem LieAt.append {options : Options} {paths paths' : List String}
    {files files' : List PublishedFile} (h : LieAt options paths files)
    (h' : LieAt options paths' files') : LieAt options (paths ++ paths') (files ++ files') := by
  refine ⟨by rw [List.map_append, h.paths, h'.paths], fun file hm => ?_⟩
  rcases List.mem_append.1 hm with hFirst | hSecond
  · exact h.typed file hFirst
  · exact h'.typed file hSecond

/-- A template and its data file lie at the paths of their name. -/
theorem lieAt_filePaths {options : Options} {name : String} {template : PublishedFile}
    {data : Option PublishedFile} {hasData : Bool}
    (hPath : template.path = templatePath options name) (hType : template.type = .html)
    (hSome : data.isSome = hasData) (hData : ∀ file ∈ data, file.path = sidecarPath options name) :
    LieAt options (filePaths options hasData name) (template :: data.toList) := by
  have hTemplate := isTypedByPath_of_html options hType
  subst hSome
  cases data with
  | none => exact ⟨by simp [filePaths, hPath], by simpa using hTemplate⟩
  | some data =>
      have hDataPath := hData data rfl
      have hTyped := isTypedByPath_of_sidecarPath hDataPath
      exact ⟨by simp [filePaths, hPath, hDataPath], by simpa using ⟨hTemplate, hTyped⟩⟩

variable {options : Options} {page : Page} {file : PublishedFile} {data : Option PublishedFile}
  {hasData : Bool}

theorem variant_returns (hPath : file.path = templatePath options (pageSlug page.name))
    (hSome : data.isSome = hasData)
    (hData : ∀ file ∈ data, file.path = sidecarPath options (pageSlug page.name)) (lang : String) :
    Returns (LieAt options (filePaths options hasData (languageName (pageSlug page.name) lang)))
      (variant options page file data lang) := by
  unfold variant
  refine (Returns.any _).bind fun content _ => Returns.pure ?_
  refine lieAt_filePaths ?_ rfl (by simpa using hSome) ?_
  · rw [hPath, withLanguage_templatePath]
  · intro other hOther
    obtain ⟨original, hOriginal, rfl⟩ := Option.map_eq_some_iff.1 hOther
    simp only [hData original hOriginal, withLanguage_sidecarPath]

theorem variants_returns (hPath : file.path = templatePath options (pageSlug page.name))
    (hSome : data.isSome = hasData)
    (hData : ∀ file ∈ data, file.path = sidecarPath options (pageSlug page.name))
    (langs : List String) :
    Returns (LieAt options ((langs.map (languageName (pageSlug page.name))).flatMap
      (filePaths options hasData))) (variants options page file data langs) := by
  induction langs with
  | nil => exact Returns.pure ⟨rfl, by simp⟩
  | cons lang langs ih =>
      unfold variants
      refine (variant_returns hPath hSome hData lang).bind fun first hFirst => ?_
      exact ih.bind fun rest hRest => Returns.pure (hFirst.append hRest)

/-- A page becomes a template, and beside it the data file, under each of its names. -/
theorem pageFiles_returns (host : Host)
    (hPath : file.path = templatePath options (pageSlug page.name)) (hType : file.type = .html) :
    Returns (LieAt options (outputPaths host options page)) (pageFiles host options page file) := by
  unfold pageFiles
  refine (pageDataFile?_returns host options page).bind fun data ⟨hSome, hData⟩ => ?_
  unfold outputPaths fileNames
  cases page.settings.languages with
  | nil =>
      refine (Returns.any _).bind fun content _ => Returns.pure ?_
      rw [List.flatMap_singleton]
      exact lieAt_filePaths hPath hType hSome hData
  | cons lang langs => exact variants_returns hPath hSome hData (lang :: langs)

end Assembly

end PagePress
