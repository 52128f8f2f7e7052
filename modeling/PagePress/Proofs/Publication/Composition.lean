import PagePress.Proofs.Publication.Locality

/-!
# Composition of pages

What an assembly makes of files in any order, as long as every page has one template among them and
no page lies where another one has a language. A page is composed of its front matter, the states
of its body and the content that its file had before any page was assembled, once for each of its
languages, each time with its data file. The first of these files stands where the old one stood.
A page whose front matter does not compile leaves its place empty. All other files stay where they
were, and the other files of pages come behind them in page order.

The assembly finds a page's file between two groups of files that do not have its path, whatever
was done before. What the page becomes does not have the path of any page to come, so the same can
be said of the next page.

## Main results

* `pageFiles_composed` — the files of a page are composed of its parts.
* `assemble_composes` — an assembly composes every page in its place.
-/

namespace PagePress

open Publisher Assembly

variable {host : Host} {options : Options} {page : Page} {pages : List Page}
  {file : PublishedFile} {files : List PublishedFile} {context next : Context}

/-! ## What a page is composed of -/

namespace Assembly

/-- The languages that a page gets front matter for; a page without languages gets one without. -/
def headerLanguages (page : Page) : List (Option String) :=
  match page.settings.languages with
  | [] => [none]
  | langs => langs.map some

/-- The front matter of a page in some languages, one after the other. -/
def headers (options : Options) (page : Page) (langs : List (Option String)) :
    Pass PublishError (List String) :=
  langs.mapM fun lang =>
    frontMatter options page.settings (pageSlug page.name) page.component.element (some page.name)
      lang

/-- A path in a language: with the language before the extension, or as it is. -/
def pathIn (extension : String) : Option String → String → String
  | none, path => path
  | some lang, path => Route.withLanguage extension lang path

/-- The template of a page in a language, made of its front matter and of its old file, and its data
file behind it. -/
def composedFiles (options : Options) (page : Page) (file : PublishedFile)
    (data : Option PublishedFile) (lang : Option String) (header : String) : List PublishedFile :=
  ⟨pathIn ".html" lang file.path, .html,
      header ++ bodyStates options page.component.element ++ file.content⟩ ::
    (data.map fun data => { data with path := pathIn ".11tydata.js" lang data.path }).toList

/-- A page has a data file exactly when a payload of its query has text. It lies beside the page and
fetches the payloads with text. -/
inductive HasDataFile (host : Host) (options : Options) (page : Page) (context : Context) :
    Option PublishedFile → Context → Prop
  | without (hData : hasData host page = false) :
      HasDataFile host options page context none context
  | beside {content : String} {next : Context} (hData : hasData host page = true)
      (hRun : (dataFile options host.dataSource (pageQuery host page)).runIn context =
        (.ok content, next)) :
      HasDataFile host options page context
        (some ⟨dataPath options (pageSlug page.name), .other, content⟩) next

/-- Files are what a page with an old file is composed of, from a context to a later one: first its
data file is made, then its front matter in every language. -/
def IsComposed (host : Host) (options : Options) (page : Page) (file : PublishedFile)
    (context : Context) (files : List PublishedFile) (next : Context) : Prop :=
  ∃ data between texts, HasDataFile host options page context data between ∧
    (headers options page (headerLanguages page)).runIn between = (.ok texts, next) ∧
    texts.length = (headerLanguages page).length ∧
    files = (List.zipWith (composedFiles options page file data) (headerLanguages page)
      texts).flatten

theorem pageDataFile?_hasDataFile {data : Option PublishedFile}
    (hRun : (pageDataFile? host options page).runIn context = (.ok data, next)) :
    HasDataFile host options page context data next := by
  unfold pageDataFile? at hRun
  simp only [isEmpty_pageQuery] at hRun
  cases hData : hasData host page with
  | false =>
      simp only [hData, Bool.not_false, ↓reduceIte] at hRun
      cases hRun
      exact .without hData
  | true =>
      simp only [hData, Bool.not_true, Bool.false_eq_true, ↓reduceIte] at hRun
      obtain ⟨content, between, hContent, hRest⟩ := Pass.runIn_bind_eq_ok hRun
      cases hRest
      exact .beside hData hContent

theorem pageContent_header {lang : Option String} {content text : String}
    (hRun : (pageContent options page lang content).runIn context = (.ok text, next)) :
    ∃ header, (frontMatter options page.settings (pageSlug page.name) page.component.element
        (some page.name) lang).runIn context = (.ok header, next) ∧
      text = header ++ bodyStates options page.component.element ++ content := by
  obtain ⟨header, between, hHeader, hRest⟩ := Pass.runIn_bind_eq_ok hRun
  cases hRest
  exact ⟨header, hHeader, rfl⟩

theorem headers_cons {lang : Option String} {langs : List (Option String)} {between : Context}
    {header : String} {texts : List String}
    (hHeader : (frontMatter options page.settings (pageSlug page.name) page.component.element
      (some page.name) lang).runIn context = (.ok header, between))
    (hRest : (headers options page langs).runIn between = (.ok texts, next)) :
    (headers options page (lang :: langs)).runIn context = (.ok (header :: texts), next) := by
  rw [headers, List.mapM_cons, Pass.runIn_bind_of_ok hHeader, ← headers,
    Pass.runIn_bind_of_ok hRest]
  rfl

/-- The variants of a page in some languages are composed of its front matter in each. -/
theorem variants_composed {data : Option PublishedFile} (langs : List String) :
    ∀ {context : Context} {files : List PublishedFile},
      (variants options page file data langs).runIn context = (.ok files, next) →
      ∃ texts, (headers options page (langs.map some)).runIn context = (.ok texts, next) ∧
        texts.length = langs.length ∧
        files = (List.zipWith (composedFiles options page file data) (langs.map some)
          texts).flatten := by
  induction langs with
  | nil =>
      intro context files hRun
      cases hRun
      exact ⟨[], rfl, rfl, rfl⟩
  | cons lang langs ih =>
      intro context files hRun
      obtain ⟨first, between, hFirst, hRest⟩ := Pass.runIn_bind_eq_ok hRun
      obtain ⟨rest, after, hVariants, hPure⟩ := Pass.runIn_bind_eq_ok hRest
      cases hPure
      obtain ⟨text, middle, hContent, hVariant⟩ := Pass.runIn_bind_eq_ok hFirst
      cases hVariant
      obtain ⟨header, hHeader, rfl⟩ := pageContent_header hContent
      obtain ⟨texts, hTexts, hLength, rfl⟩ := ih hVariants
      exact ⟨header :: texts, headers_cons hHeader hTexts, congrArg (· + 1) hLength, rfl⟩

/-- What a page with a template becomes is composed of its parts. -/
theorem pageFiles_composed (hType : file.type = .html)
    (hRun : (pageFiles host options page file).runIn context = (.ok files, next)) :
    IsComposed host options page file context files next := by
  obtain ⟨data, between, hData, hRest⟩ := Pass.runIn_bind_eq_ok hRun
  have hDataFile := pageDataFile?_hasDataFile hData
  unfold IsComposed headerLanguages
  cases hLangs : page.settings.languages with
  | nil =>
      rw [hLangs] at hRest
      obtain ⟨text, after, hContent, hPure⟩ := Pass.runIn_bind_eq_ok hRest
      cases hPure
      obtain ⟨header, hHeader, rfl⟩ := pageContent_header hContent
      refine ⟨data, between, [header], hDataFile, headers_cons hHeader rfl, rfl, ?_⟩
      rw [hType]
      cases data <;> rfl
  | cons lang langs =>
      rw [hLangs] at hRest
      obtain ⟨texts, hTexts, hLength, hFiles⟩ := variants_composed (lang :: langs) hRest
      refine ⟨data, between, texts, hDataFile, hTexts, ?_, hFiles⟩
      rw [hLength, List.length_map]

end Assembly

/-! ## Pages and their files -/

/-- Files among which every page has exactly one at its path, a template, where the paths of pages
are distinct and none is the path of another page in one of its languages. -/
structure Filed (options : Options) (pages : List Page) (files : List PublishedFile) : Prop where
  distinct : (pages.map fun page => pagePath options (pageSlug page.name)).Nodup
  once : ∀ page ∈ pages,
    (files.map PublishedFile.path).count (pagePath options (pageSlug page.name)) = 1
  html : ∀ page ∈ pages, ∀ file ∈ files,
    file.path = pagePath options (pageSlug page.name) → file.type = .html
  variants : ∀ page ∈ pages, ∀ other ∈ pages, page ≠ other → ∀ lang ∈ page.settings.languages,
    Route.withLanguage ".html" lang (pagePath options (pageSlug page.name)) ≠
      pagePath options (pageSlug other.name)

/-- A path that one file has splits the files at that file. -/
theorem exists_split_of_count {path : String}
    (h : (files.map PublishedFile.path).count path = 1) :
    ∃ firsts file others, files = firsts ++ file :: others ∧ file.path = path ∧
      (∀ other ∈ firsts, other.path ≠ path) ∧ ∀ other ∈ others, other.path ≠ path := by
  have hMem : path ∈ files.map PublishedFile.path := List.count_pos_iff.1 (by omega)
  obtain ⟨file, hFile, hPath⟩ := List.mem_map.1 hMem
  obtain ⟨firsts, others, rfl⟩ := List.append_of_mem hFile
  simp only [List.map_append, List.map_cons, List.count_append, hPath, List.count_cons_self] at h
  have hFirsts : (firsts.map PublishedFile.path).count path = 0 := by omega
  have hOthers : (others.map PublishedFile.path).count path = 0 := by omega
  refine ⟨firsts, file, others, rfl, hPath, ?_, ?_⟩
  · intro other hm hEq
    exact List.count_eq_zero.1 hFirsts (List.mem_map.2 ⟨other, hm, hEq⟩)
  · intro other hm hEq
    exact List.count_eq_zero.1 hOthers (List.mem_map.2 ⟨other, hm, hEq⟩)

theorem Filed.outputPaths (h : Filed options (page :: pages) files) {other : Page}
    (hOther : other ∈ pages) :
    pagePath options (pageSlug other.name) ∉ Assembly.outputPaths host options page := by
  obtain ⟨hHead, -⟩ := List.nodup_cons.1 h.distinct
  have hPaths : pagePath options (pageSlug other.name) ≠ pagePath options (pageSlug page.name) := by
    intro hEq
    exact hHead (List.mem_map.2 ⟨other, hOther, hEq⟩)
  apply not_mem_outputPaths hPaths
  apply h.variants page List.mem_cons_self other (List.mem_cons_of_mem _ hOther)
  rintro rfl
  exact hPaths rfl

/-- A file whose path none of the new files has was there before. -/
theorem mem_of_replaced {firsts others first rest : List PublishedFile} {moved : PublishedFile}
    {path : String} (hMoved : moved ∈ firsts ++ first ++ (others ++ rest))
    (hFirst : ∀ new ∈ first, new.path ≠ path) (hRest : ∀ new ∈ rest, new.path ≠ path)
    (hPath : moved.path = path) : moved ∈ firsts ++ file :: others := by
  rcases List.mem_append.1 hMoved with hMoved | hMoved <;>
    rcases List.mem_append.1 hMoved with hMoved | hMoved
  · exact List.mem_append_left _ hMoved
  · exact absurd hPath (hFirst moved hMoved)
  · exact List.mem_append_right _ (List.mem_cons_of_mem _ hMoved)
  · exact absurd hPath (hRest moved hMoved)

/-- Files that lie elsewhere may come in place of the file of a page: all other pages keep theirs.
-/
theorem Filed.replace {firsts others first rest : List PublishedFile}
    (h : Filed options (page :: pages) (firsts ++ file :: others))
    (hPath : file.path = pagePath options (pageSlug page.name))
    (hFirst : ∀ moved ∈ first, ∀ other ∈ pages,
      moved.path ≠ pagePath options (pageSlug other.name))
    (hRest : ∀ moved ∈ rest, ∀ other ∈ pages,
      moved.path ≠ pagePath options (pageSlug other.name)) :
    Filed options pages (firsts ++ first ++ (others ++ rest)) := by
  obtain ⟨hHead, hTail⟩ := List.nodup_cons.1 h.distinct
  constructor
  · exact hTail
  · intro other hOther
    have hOnce := h.once other (List.mem_cons_of_mem _ hOther)
    have hFile : file.path ≠ pagePath options (pageSlug other.name) := by
      rw [hPath]
      intro hEq
      exact hHead (List.mem_map.2 ⟨other, hOther, hEq.symm⟩)
    have hNone : ∀ moved : List PublishedFile,
        (∀ file ∈ moved, ∀ other ∈ pages, file.path ≠ pagePath options (pageSlug other.name)) →
        (moved.map PublishedFile.path).count (pagePath options (pageSlug other.name)) = 0 := by
      intro moved hMoved
      apply List.count_eq_zero.2
      intro hMem
      obtain ⟨file, hm, hEq⟩ := List.mem_map.1 hMem
      exact hMoved file hm other hOther hEq
    simp only [List.map_append, List.map_cons, List.count_append, List.count_cons,
      beq_iff_eq, hFile, ↓reduceIte, Nat.add_zero] at hOnce
    simp only [List.map_append, List.count_append, hNone first hFirst, hNone rest hRest]
    omega
  · intro other hOther moved hMoved hEq
    apply h.html other (List.mem_cons_of_mem _ hOther) moved _ hEq
    exact mem_of_replaced hMoved (fun new hm => hFirst new hm other hOther)
      (fun new hm => hRest new hm other hOther) hEq
  · intro first hFirst other hOther
    exact h.variants first (List.mem_cons_of_mem _ hFirst) other (List.mem_cons_of_mem _ hOther)

/-! ## Pages in their places -/

/-- What comes in place of a file, from what every page becomes: the first file of the page whose
path it has, and nothing when that page became nothing. A file of no page stays. -/
def inPlace (options : Options) (outputs : List (Page × List PublishedFile))
    (file : PublishedFile) : List PublishedFile :=
  match outputs.find? fun output => pagePath options (pageSlug output.1.name) = file.path with
  | some output => output.2.take 1
  | none => [file]

/-- What pages become one after the other, each from the one file with its path among some files. A
page whose front matter does not compile in the first context becomes nothing; any other page is
composed in the context that the pages before it left. -/
inductive Composes (host : Host) (options : Options) (start : Context)
    (files : List PublishedFile) :
    List Page → Context → List (Page × List PublishedFile) → Context → Prop
  | nil (context : Context) : Composes host options start files [] context [] context
  | failed {page : Page} {pages : List Page} {context between next : Context}
      {outputs : List (Page × List PublishedFile)} {error : PublishError}
      (hHeader : headerFault? options start page = some error)
      (hBetween : between.Follows context)
      (hRest : Composes host options start files pages between outputs next) :
      Composes host options start files (page :: pages) context ((page, []) :: outputs) next
  | composed {page : Page} {pages : List Page} {context between next : Context}
      {outputs : List (Page × List PublishedFile)} {file : PublishedFile}
      {share : List PublishedFile}
      (hHeader : headerFault? options start page = none)
      (hFile : file ∈ files) (hPath : file.path = pagePath options (pageSlug page.name))
      (hShare : IsComposed host options page file context share between)
      (hRest : Composes host options start files pages between outputs next) :
      Composes host options start files (page :: pages) context ((page, share) :: outputs) next

variable {outputs : List (Page × List PublishedFile)}

theorem Composes.pages_eq {start : Context}
    (h : Composes host options start files pages context outputs next) :
    outputs.map Prod.fst = pages := by
  induction h with
  | nil context => rfl
  | failed _ _ _ ih => exact congrArg (_ :: ·) ih
  | composed _ _ _ _ _ ih => exact congrArg (_ :: ·) ih

/-- Only the files of the pages matter. -/
theorem Composes.of_files {start : Context} {files' : List PublishedFile}
    (h : Composes host options start files pages context outputs next)
    (hFiles : ∀ page ∈ pages, ∀ file ∈ files,
      file.path = pagePath options (pageSlug page.name) → file ∈ files') :
    Composes host options start files' pages context outputs next := by
  induction h with
  | nil context => exact .nil context
  | failed hHeader hBetween _ ih =>
      exact .failed hHeader hBetween (ih fun page hm => hFiles page (List.mem_cons_of_mem _ hm))
  | composed hHeader hFile hPath hShare _ ih =>
      exact .composed hHeader (hFiles _ List.mem_cons_self _ hFile hPath) hPath hShare
        (ih fun page hm => hFiles page (List.mem_cons_of_mem _ hm))

theorem inPlace_cons_of_eq {share : List PublishedFile}
    (hPath : file.path = pagePath options (pageSlug page.name)) :
    inPlace options ((page, share) :: outputs) file = share.take 1 := by
  simp [inPlace, hPath]

theorem inPlace_cons_of_ne {share : List PublishedFile}
    (hPath : file.path ≠ pagePath options (pageSlug page.name)) :
    inPlace options ((page, share) :: outputs) file = inPlace options outputs file := by
  have hNe : ¬ pagePath options (pageSlug page.name) = file.path := fun hEq => hPath hEq.symm
  simp only [inPlace, List.find?_cons, hNe, decide_false]

/-- A file at the path of no page stays. -/
theorem inPlace_of_apart
    (h : ∀ page ∈ outputs.map Prod.fst, file.path ≠ pagePath options (pageSlug page.name)) :
    inPlace options outputs file = [file] := by
  have hNone : (outputs.find? fun output =>
      pagePath options (pageSlug output.1.name) = file.path) = none := by
    apply List.find?_eq_none.2
    intro output hm hEq
    exact h output.1 (List.mem_map_of_mem hm) (of_decide_eq_true hEq).symm
  rw [inPlace, hNone]

theorem flatMap_inPlace_of_apart
    (h : ∀ file ∈ files, ∀ page ∈ outputs.map Prod.fst,
      file.path ≠ pagePath options (pageSlug page.name)) :
    files.flatMap (inPlace options outputs) = files := by
  rw [List.flatMap_congr fun file hm => inPlace_of_apart (h file hm)]
  exact List.flatMap_singleton' files

/-- The files with one page composed, and then all others, are the files with all pages composed. -/
theorem flatMap_inPlace_cons {firsts others share : List PublishedFile}
    (hPath : file.path = pagePath options (pageSlug page.name))
    (hFirsts : ∀ other ∈ firsts, other.path ≠ pagePath options (pageSlug page.name))
    (hOthers : ∀ other ∈ others, other.path ≠ pagePath options (pageSlug page.name))
    (hShare : ∀ moved ∈ share, ∀ other ∈ outputs.map Prod.fst,
      moved.path ≠ pagePath options (pageSlug other.name)) :
    (firsts ++ share.take 1 ++ (others ++ share.drop 1)).flatMap (inPlace options outputs) =
      (firsts ++ file :: others).flatMap (inPlace options ((page, share) :: outputs)) ++
        share.drop 1 := by
  have hKept : ∀ group : List PublishedFile,
      (∀ other ∈ group, other.path ≠ pagePath options (pageSlug page.name)) →
      group.flatMap (inPlace options ((page, share) :: outputs)) =
        group.flatMap (inPlace options outputs) :=
    fun group hGroup => List.flatMap_congr fun other hm => inPlace_cons_of_ne (hGroup other hm)
  have hFirst : (share.take 1).flatMap (inPlace options outputs) = share.take 1 :=
    flatMap_inPlace_of_apart fun moved hm => hShare moved (List.mem_of_mem_take hm)
  have hRest : (share.drop 1).flatMap (inPlace options outputs) = share.drop 1 :=
    flatMap_inPlace_of_apart fun moved hm => hShare moved (List.mem_of_mem_drop hm)
  simp only [List.flatMap_append, List.flatMap_cons, hKept firsts hFirsts, hKept others hOthers,
    hFirst, hRest, inPlace_cons_of_eq hPath, List.append_assoc]

/-! ## Runs -/

/-- What one page becomes, before the pages behind it. -/
theorem Composes.cons {start : Context} {draft : Draft} (hDraft : draft.context.Follows start)
    (hKnown : unknownSource? host page = none) (hFile : file ∈ files)
    (hPath : file.path = pagePath options (pageSlug page.name)) (hType : file.type = .html)
    (hRest : Composes host options start files pages
      ((pageFiles host options page file).runIn draft.context).2 outputs next) :
    Composes host options start files (page :: pages) draft.context
      ((page, assembledFiles host options page file draft.context) :: outputs) next := by
  have hFault := pageFiles_fault? host options hDraft page file
  have hFollows := pageFiles_follows host options page file draft.context
  rw [assemblyFault?, hKnown, Option.map_none, Option.none_or] at hFault
  unfold assembledFiles
  rcases hRun : (pageFiles host options page file).runIn draft.context with ⟨error | share, after⟩
  · rw [Pass.fault?_of_error hRun] at hFault
    rw [hRun] at hRest hFollows
    exact .failed hFault.symm hFollows hRest
  · rw [Pass.fault?_of_ok hRun] at hFault
    rw [hRun] at hRest
    exact .composed hFault.symm hFile hPath (pageFiles_composed hType hRun) hRest

/-- An assembly goes on past a page only when the host knows the data sources of its query. -/
theorem unknownSource?_of_assemblePage {start : Context} {draft after : Draft}
    {firsts others : List PublishedFile} (hFiles : draft.files = firsts ++ file :: others)
    (hPath : file.path = pagePath options (pageSlug page.name)) (hType : file.type = .html)
    (hFirsts : ∀ other ∈ firsts, other.path ≠ pagePath options (pageSlug page.name))
    (hDraft : draft.context.Follows start)
    (hRun : assemblePage host options page draft = (none, after)) :
    unknownSource? host page = none := by
  rw [assemblePage_eq_assembleAt hFiles hPath hType hFirsts] at hRun
  cases hUnknown : unknownSource? host page with
  | none => rfl
  | some id =>
      have hError : (assembleAt host options page firsts.length file draft).1 =
          some (.unknownDataSource id) := assembleAt_of_unknown hDraft hUnknown
      rw [hRun] at hError
      cases hError

/-- One page takes its place, and the pages to come still have their files. -/
theorem assemblePage_composes {start : Context} {draft after : Draft}
    (hFiled : Filed options (page :: pages) draft.files) (hDraft : draft.context.Follows start)
    (hRun : assemblePage host options page draft = (none, after)) :
    ∃ share, Filed options pages after.files ∧ after.context.Follows draft.context ∧
      (∀ outputs next, Composes host options start after.files pages after.context outputs next →
        Composes host options start draft.files (page :: pages) draft.context
          ((page, share) :: outputs) next) ∧
      ∀ outputs : List (Page × List PublishedFile), outputs.map Prod.fst = pages →
        after.files.flatMap (inPlace options outputs) =
          draft.files.flatMap (inPlace options ((page, share) :: outputs)) ++ share.drop 1 := by
  obtain ⟨firsts, file, others, hFiles, hPath, hFirsts, hOthers⟩ :=
    exists_split_of_count (hFiled.once page List.mem_cons_self)
  have hFile : file ∈ draft.files := by
    rw [hFiles]
    exact List.mem_append_right _ List.mem_cons_self
  have hType := hFiled.html page List.mem_cons_self file hFile hPath
  have hKnown := unknownSource?_of_assemblePage hFiles hPath hType hFirsts hDraft hRun
  obtain ⟨after', hAt, hAfter, hAfterFiles⟩ :=
    assembleAt_border hFiles hDraft hPath hType hKnown
  have hContext := assembleAt_context host options page firsts.length file draft
  rw [assemblePage_eq_assembleAt hFiles hPath hType hFirsts, hAt] at hRun
  obtain rfl : after' = after := congrArg Prod.snd hRun
  rw [hAt] at hContext
  have hShare := assembledFiles_path host hPath hType draft.context
  generalize hOutput : assembledFiles host options page file draft.context = share
    at hShare hAfterFiles
  have hApart : ∀ moved ∈ share, ∀ other ∈ pages,
      moved.path ≠ pagePath options (pageSlug other.name) := by
    intro moved hMoved other hOther hEq
    have hOutside : pagePath options (pageSlug other.name) ∉
        Assembly.outputPaths host options page := hFiled.outputPaths hOther
    exact hOutside (hEq ▸ hShare moved hMoved)
  have hFirst : ∀ moved ∈ share.take 1, ∀ other ∈ pages,
      moved.path ≠ pagePath options (pageSlug other.name) :=
    fun moved hm => hApart moved (List.mem_of_mem_take hm)
  have hRest : ∀ moved ∈ share.drop 1, ∀ other ∈ pages,
      moved.path ≠ pagePath options (pageSlug other.name) :=
    fun moved hm => hApart moved (List.mem_of_mem_drop hm)
  refine ⟨share, ?_, hAfter, ?_, ?_⟩
  · rw [hAfterFiles]
    rw [hFiles] at hFiled
    exact hFiled.replace hPath hFirst hRest
  · intro outputs next hOutputs
    rw [← hOutput]
    apply Composes.cons hDraft hKnown hFile hPath hType
    rw [← hContext]
    apply hOutputs.of_files
    intro other hOther moved hMoved hEq
    rw [hAfterFiles] at hMoved
    rw [hFiles]
    exact mem_of_replaced hMoved (fun new hm => hFirst new hm other hOther)
      (fun new hm => hRest new hm other hOther) hEq
  · rintro outputs rfl
    rw [hAfterFiles, hFiles]
    exact flatMap_inPlace_cons hPath hFirsts hOthers hApart

/-- An assembly that does not end early composes every page, from the file that the page had before
any page was assembled, and puts it in the place of that file. -/
theorem assemble_run_composes {start : Context} (pages : List Page) :
    ∀ {draft final : Draft}, Filed options pages draft.files → draft.context.Follows start →
      assemble host options pages draft = (none, final) →
      ∃ outputs, Composes host options start draft.files pages draft.context outputs
          final.context ∧
        final.files = draft.files.flatMap (inPlace options outputs) ++
          outputs.flatMap fun output => output.2.drop 1 := by
  induction pages with
  | nil =>
      intro draft final _ _ hRun
      cases hRun
      refine ⟨[], .nil _, ?_⟩
      rw [flatMap_inPlace_of_apart fun _ _ page hm => absurd hm List.not_mem_nil]
      simp
  | cons page pages ih =>
      intro draft final hFiled hDraft hRun
      rw [assemble] at hRun
      rcases hPage : assemblePage host options page draft with ⟨_ | error, after⟩
      · rw [hPage] at hRun
        obtain ⟨share, hNext, hAfter, hCons, hFiles⟩ := assemblePage_composes hFiled hDraft hPage
        obtain ⟨outputs, hOutputs, hFinal⟩ := ih hNext (hAfter.trans hDraft) hRun
        refine ⟨(page, share) :: outputs, hCons outputs _ hOutputs, ?_⟩
        rw [hFinal, hFiles outputs hOutputs.pages_eq, List.flatMap_cons, List.append_assoc]
      · rw [hPage] at hRun
        cases hRun

/-- Pages are composed faithfully: when an assembly of files that has one template for every page
does not end early, what becomes of every page is composed of its front matter, the states of its
body and the content that its file had, and it stands where that file stood. -/
theorem assemble_composes {draft final : Draft} (hFiled : Filed options pages draft.files)
    (hRun : assemble host options pages draft = (none, final)) :
    ∃ outputs, Composes host options draft.context draft.files pages draft.context outputs
        final.context ∧
      final.files = draft.files.flatMap (inPlace options outputs) ++
        outputs.flatMap fun output => output.2.drop 1 :=
  assemble_run_composes pages hFiled (.refl _) hRun

/-- A page in two languages with data, a page whose permalink is printed, and one whose permalink
is no expression. -/
def shuffledSite : Site where
  pages :=
    [⟨"Home", { languagesList := some "en, fr" }, .leaf { id := "home" }⟩,
     ⟨"Draft", { permalink := some "[" }, .leaf { id := "draft" }⟩,
     ⟨"Blog", { permalink := some "[\x7b\"type\":\"property\",\"fieldId\":\"slug\"\x7d]" },
       .leaf { id := "blog" }⟩]
  dataSources := [{ id := "cms", kind := .other }]
  queries := .ofList [("Home", .ofList [("cms", "query")])]

/-- The templates of these pages in another order, around a style sheet. -/
def shuffledFiles : List PublishedFile :=
  [⟨"/blog.html", .html, "blog"⟩, ⟨"/main.css", .css, "css"⟩, ⟨"/draft.html", .html, "draft"⟩,
   ⟨"/home.html", .html, "home"⟩]

theorem shuffledFiles_filed : Filed {} shuffledSite.pages shuffledFiles := by
  have hVariants : ∀ page ∈ shuffledSite.pages, ∀ other ∈ shuffledSite.pages,
      ∀ lang ∈ page.settings.languages,
        Route.withLanguage ".html" lang (pagePath {} (pageSlug page.name)) ≠
          pagePath {} (pageSlug other.name) := by
    decide +kernel
  exact ⟨by decide +kernel, by decide +kernel, by decide +kernel,
    fun page hPage other hOther _ => hVariants page hPage other hOther⟩

theorem shuffledSite_composes : ∃ final : Draft,
    assemble shuffledSite.host {} shuffledSite.pages
        ⟨Context.start {} 0 [], shuffledFiles, []⟩ = (none, final) ∧
      final.files.map PublishedFile.path = ["/blog.html", "/main.css", "/home-en.html",
        "/home-en.11tydata.js", "/home-fr.html", "/home-fr.11tydata.js"] ∧
      ∃ outputs, Composes shuffledSite.host {} (Context.start {} 0 []) shuffledFiles
          shuffledSite.pages (Context.start {} 0 []) outputs final.context ∧
        final.files = shuffledFiles.flatMap (inPlace {} outputs) ++
          outputs.flatMap fun output => output.2.drop 1 := by
  have hOk : (assemble shuffledSite.host {} shuffledSite.pages
      ⟨Context.start {} 0 [], shuffledFiles, []⟩).1 = none := by
    decide +kernel
  obtain ⟨final, hRun⟩ : ∃ final, assemble shuffledSite.host {} shuffledSite.pages
      ⟨Context.start {} 0 [], shuffledFiles, []⟩ = (none, final) :=
    ⟨_, Prod.ext hOk rfl⟩
  have hPaths : (assemble shuffledSite.host {} shuffledSite.pages
      ⟨Context.start {} 0 [], shuffledFiles, []⟩).2.files.map PublishedFile.path =
        ["/blog.html", "/main.css", "/home-en.html", "/home-en.11tydata.js", "/home-fr.html",
          "/home-fr.11tydata.js"] := by
    decide +kernel
  rw [hRun] at hPaths
  exact ⟨final, hRun, hPaths, assemble_composes shuffledFiles_filed hRun⟩

end PagePress
