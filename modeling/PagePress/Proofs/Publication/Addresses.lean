import Mathlib.Data.List.Perm.Basic
import PagePress.Proofs.Permalinks
import PagePress.Proofs.Publication.Composition

/-!
# Addresses of a site

Where a template lies and where its page goes are made up apart: the path from the slug and the
language, the permalink from the slug alone. So all files of a page in its languages ask for one
address, and files of different pages for different ones.

What a site publishes is, in some order, what its pages are composed of. It takes pages at paths
apart: where a page lies at the path of another one in a language, the file of that other one may be
taken for the page's own.

## Main results

* `publishPages_perm` — the files of a site are those that its pages are composed of.
* `publishPages_permalinkLines` — the permalink lines of a site, and when they are distinct.
-/

namespace PagePress

open Publisher Assembly FrontMatter

variable {host : Host} {options : Options} {page : Page} {pages : List Page}
  {file : PublishedFile} {files : List PublishedFile} {context next : Context}

/-- The permalink lines of the templates among some files. -/
def permalinkLines (files : List PublishedFile) : List (Option String) :=
  (files.filter fun file => file.type = .html).map fun file => permalinkLine? file.content

theorem permalinkLines_append (files others : List PublishedFile) :
    permalinkLines (files ++ others) = permalinkLines files ++ permalinkLines others := by
  simp [permalinkLines]

/-- The permalink lines of a page: its slug gives one for each of its languages. -/
def linesBySlug (page : Page) : List (Option String) :=
  List.replicate (max 1 page.settings.languages.length) (some (slugLine (pageSlug page.name)))

/-! ## Composed pages -/

theorem length_headerLanguages (page : Page) :
    (headerLanguages page).length = max 1 page.settings.languages.length := by
  unfold headerLanguages
  cases page.settings.languages with
  | nil => rfl
  | cons lang langs => simp

theorem returns_headers (options : Options) (h : IsBySlug page.settings)
    (langs : List (Option String)) :
    Pass.Returns (fun texts => ∀ text ∈ texts, OpensWith (slugLine (pageSlug page.name)) text)
      (headers options page langs) := by
  apply Pass.Returns.mapM
  intro lang _ context text next hRun
  obtain ⟨header, hHeader, hOpens⟩ := run_frontMatter options h page.name page.component.element
    (some page.name) lang context
  rw [hHeader] at hRun
  cases hRun
  exact hOpens

/-- A template with its data file, which is no template, has the line of its front matter. -/
theorem permalinkLines_composedFiles {data : Option PublishedFile}
    (hData : ∀ file ∈ data, file.type ≠ .html) (lang : Option String) {header : String}
    (hHeader : OpensWith (slugLine (pageSlug page.name)) header) :
    permalinkLines (composedFiles options page file data lang header) =
      [some (slugLine (pageSlug page.name))] := by
  have hLine := ((hHeader.append (bodyStates options page.component.element)).append
    file.content).permalinkLine?_eq (isOneLine_slugLine page.name) (isPrefixOf_slugLine _)
  cases data with
  | none => simp [permalinkLines, composedFiles, hLine]
  | some data =>
      have hType : data.type ≠ .html := hData data rfl
      simp [permalinkLines, composedFiles, hLine, hType]

theorem permalinkLines_zipWith {data : Option PublishedFile}
    (hData : ∀ file ∈ data, file.type ≠ .html) (langs : List (Option String)) :
    ∀ {texts : List String}, texts.length = langs.length →
      (∀ text ∈ texts, OpensWith (slugLine (pageSlug page.name)) text) →
      permalinkLines (List.zipWith (composedFiles options page file data) langs texts).flatten =
        List.replicate langs.length (some (slugLine (pageSlug page.name))) := by
  induction langs with
  | nil =>
      intro texts hLength _
      obtain rfl := List.length_eq_zero_iff.1 hLength
      rfl
  | cons lang langs ih =>
      intro texts hLength hTexts
      obtain _ | ⟨text, texts⟩ := texts
      · cases hLength
      · obtain ⟨hText, hOthers⟩ := List.forall_mem_cons.1 hTexts
        rw [List.zipWith_cons_cons, List.flatten_cons, permalinkLines_append,
          permalinkLines_composedFiles hData lang hText, ih (Nat.succ.inj hLength) hOthers]
        rfl

/-- What a page is composed of has the lines that its slug gives. -/
theorem Assembly.IsComposed.permalinkLines_eq {share : List PublishedFile}
    (hShare : IsComposed host options page file context share next)
    (h : IsBySlug page.settings) : permalinkLines share = linesBySlug page := by
  obtain ⟨data, between, texts, hData, hHeaders, hLength, rfl⟩ := hShare
  have hType : ∀ file ∈ data, file.type ≠ .html := by
    cases hData with
    | without _ => exact fun file hm => absurd hm (Option.not_mem_none file)
    | beside _ _ =>
        intro file hm
        cases hm
        exact fun hEq => nomatch hEq
  rw [permalinkLines_zipWith hType _ hLength (returns_headers options h _ _ _ _ hHeaders),
    length_headerLanguages, linesBySlug]

theorem headerFault?_bySlug (h : IsBySlug page.settings) :
    headerFault? options context page = none := by
  obtain ⟨header, hRun, -⟩ := run_frontMatter options h page.name page.component.element
    (some page.name) none context
  exact Pass.fault?_of_ok hRun

/-- No page that is addressed by its slug fails, and each has the lines that its slug gives. -/
theorem Composes.permalinkLines_eq {start : Context} {outputs : List (Page × List PublishedFile)}
    (h : Composes host options start files pages context outputs next)
    (hSlug : ∀ page ∈ pages, IsBySlug page.settings) :
    permalinkLines (outputs.flatMap Prod.snd) = pages.flatMap linesBySlug := by
  induction h with
  | nil context => rfl
  | failed hHeader _ _ _ =>
      rw [headerFault?_bySlug (hSlug _ List.mem_cons_self)] at hHeader
      cases hHeader
  | composed _ _ _ hShare _ ih =>
      rw [List.flatMap_cons, permalinkLines_append,
        hShare.permalinkLines_eq (hSlug _ List.mem_cons_self),
        ih fun page hm => hSlug page (List.mem_cons_of_mem _ hm), List.flatMap_cons]

/-! ## Pages that render -/

theorem filterMap_rendered? (host : Host) (context : Context) (pages : List Page) :
    pages.filterMap (rendered? host context) =
      (pages.filter fun page => (renderFault? host context page).isNone).map fun page =>
        (validated page).1 := by
  induction pages with
  | nil => rfl
  | cons page pages ih =>
      cases hFault : renderFault? host context page <;> simp [rendered?, hFault, ih]

theorem languages_validated (page : Page) :
    (validated page).1.settings.languages = page.settings.languages :=
  languages_validate page.settings

theorem variantPaths_validated (options : Options) (page : Page) :
    variantPaths options (validated page).1 = variantPaths options page :=
  congrArg (List.map _) (languages_validated (validated page).1)

/-- Pages that render are as far apart as all pages. -/
theorem PathsApart.rendered (h : PathsApart options pages) :
    PathsApart options (pages.filterMap (rendered? host context)) := by
  rw [filterMap_rendered?]
  constructor
  · rw [List.map_map]
    exact h.distinct.sublist (List.filter_sublist.map _)
  · intro page hPage other hOther hNe
    obtain ⟨page', hPage', rfl⟩ := List.mem_map.1 hPage
    obtain ⟨other', hOther', rfl⟩ := List.mem_map.1 hOther
    rw [variantPaths_validated]
    exact h.variants page' (List.mem_filter.1 hPage').1 other' (List.mem_filter.1 hOther').1
      fun hEq => hNe (by rw [hEq])

/-! ## Files of a site -/

theorem paths_of_renderings {later : Context}
    (h : List.Forall₂ (IsRendering host options context later) pages files) :
    files.map PublishedFile.path = pages.map fun page => pagePath options (pageSlug page.name) := by
  induction h with
  | nil => rfl
  | cons hFile _ ih => rw [List.map_cons, List.map_cons, hFile.path, ih]

/-- The rendered files of pages apart can be assembled. -/
theorem filed_of_renderings {later : Context} (h : PathsApart options pages)
    (hFiles : List.Forall₂ (IsRendering host options context later) pages files) :
    Filed options pages files := by
  refine ⟨h.distinct, ?_, ?_, ?_⟩
  · intro page hPage
    rw [paths_of_renderings hFiles]
    exact List.count_eq_one_of_mem h.distinct (List.mem_map.2 ⟨page, hPage, rfl⟩)
  · intro page _ file hFile hPath
    exact (stock_of_renderings hFiles).typed file hFile _ (hPath.trans (pagePath_eq options _))
  · intro page hPage other hOther hNe lang hLang hEq
    rw [← languages_validated] at hLang
    exact h.variants page hPage other hOther hNe (List.mem_map.2 ⟨lang, hLang, hEq⟩)

/-- When the files of pages lie in the order of the pages, at distinct paths, what comes in their
places is the first file of each page. -/
theorem flatMap_inPlace_of_paths {outputs : List (Page × List PublishedFile)}
    (hDistinct : (outputs.map fun output => pagePath options (pageSlug output.1.name)).Nodup) :
    ∀ {files : List PublishedFile}, files.map PublishedFile.path =
        outputs.map (fun output => pagePath options (pageSlug output.1.name)) →
      files.flatMap (inPlace options outputs) = outputs.flatMap fun output => output.2.take 1 := by
  induction outputs with
  | nil =>
      intro files hPaths
      obtain rfl := List.map_eq_nil_iff.1 hPaths
      rfl
  | cons output outputs ih =>
      intro files hPaths
      obtain ⟨hHead, hTail⟩ := List.nodup_cons.1 hDistinct
      obtain ⟨file, rest, rfl, hPath, hRest⟩ := List.map_eq_cons_iff.1 hPaths
      have hOthers : rest.flatMap (inPlace options (output :: outputs)) =
          rest.flatMap (inPlace options outputs) := by
        refine List.flatMap_congr fun other hOther => inPlace_cons_of_ne fun hEq => hHead ?_
        rw [← hRest]
        exact List.mem_map.2 ⟨other, hOther, hEq⟩
      rw [List.flatMap_cons, List.flatMap_cons, inPlace_cons_of_eq hPath, hOthers, ih hTail hRest]

/-- The files of a site are, in some order, those that its pages are composed of, each from the file
that it rendered to. -/
theorem publishPages_perm (hEnabled : options.enabled = true) (hApart : PathsApart options pages)
    (hOk : (publishPages host options pages context).1 = none) :
    ∃ (draft : Draft) (outputs : List (Page × List PublishedFile)), draft.context.Follows context ∧
      List.Forall₂ (IsRendering host options context draft.context)
        (pages.filterMap (rendered? host context)) draft.files ∧
      Composes host options draft.context draft.files (pages.filterMap (rendered? host context))
        draft.context outputs (publishPages host options pages context).2.context ∧
      (publishPages host options pages context).2.files.Perm (outputs.flatMap Prod.snd) := by
  obtain ⟨draft, hDraft, hFiles, -, hRun⟩ := publishPages_run host options pages context
  rw [if_pos hEnabled] at hRun
  have hRendered : PathsApart options (pages.filterMap (rendered? host context)) :=
    hApart.rendered
  have hAssemble : assemble host options (pages.filterMap (rendered? host context)) draft =
      (none, (publishPages host options pages context).2) := by
    rw [← hRun]
    exact Prod.ext hOk rfl
  obtain ⟨outputs, hOutputs, hFinal⟩ := assemble_run_composes _
    (filed_of_renderings hRendered hFiles) (.refl draft.context) hAssemble
  refine ⟨draft, outputs, hDraft, hFiles, hOutputs, ?_⟩
  have hPaths := paths_of_renderings hFiles
  have hDistinct := hRendered.distinct
  rw [← hOutputs.pages_eq, List.map_map] at hPaths hDistinct
  rw [hFinal, flatMap_inPlace_of_paths hDistinct hPaths]
  have hSplit := List.flatMap_append_perm outputs (fun output => output.2.take 1)
    (fun output => output.2.drop 1)
  simpa only [List.take_append_drop] using hSplit

/-! ## Addresses -/

theorem linesBySlug_validated (page : Page) :
    linesBySlug (validated page).1 = linesBySlug page := by
  rw [linesBySlug, languages_validated]
  rfl

theorem nodup_linesBySlug_iff (page : Page) :
    (linesBySlug page).Nodup ↔ page.settings.languages.length ≤ 1 := by
  rw [linesBySlug, List.nodup_replicate]
  omega

/-- Pages at distinct paths have distinct lines exactly when none has two languages. -/
theorem nodup_flatMap_linesBySlug_iff
    (hDistinct : (pages.map fun page => pagePath options (pageSlug page.name)).Nodup) :
    (pages.flatMap linesBySlug).Nodup ↔ ∀ page ∈ pages, page.settings.languages.length ≤ 1 := by
  have hApart : pages.Pairwise (Function.onFun List.Disjoint linesBySlug) := by
    refine (List.pairwise_map.1 hDistinct).imp ?_
    intro page other hNe line hLine hOther
    have hEq := (List.eq_of_mem_replicate hLine).symm.trans (List.eq_of_mem_replicate hOther)
    exact hNe (congrArg (pagePath options) (slugLine_inj.1 (Option.some.inj hEq)))
  rw [List.nodup_flatMap, and_iff_left hApart]
  simp only [nodup_linesBySlug_iff]

/-- A site of pages that are addressed by their slugs has, in some order, the permalink lines of the
pages that render: one for each language of a page, made from its slug alone. They are distinct
exactly when none of these pages has two languages. -/
theorem publishPages_permalinkLines (hEnabled : options.enabled = true)
    (hApart : PathsApart options pages)
    (hSlug : ∀ page ∈ pages, IsBySlug page.settings.validate.1)
    (hOk : (publishPages host options pages context).1 = none) :
    (permalinkLines (publishPages host options pages context).2.files).Perm
        ((pages.filter fun page => (renderFault? host context page).isNone).flatMap linesBySlug) ∧
      ((permalinkLines (publishPages host options pages context).2.files).Nodup ↔
        ∀ page ∈ pages, renderFault? host context page = none →
          page.settings.languages.length ≤ 1) := by
  obtain ⟨draft, outputs, -, -, hOutputs, hPerm⟩ := publishPages_perm hEnabled hApart hOk
  have hRendered : ∀ page ∈ pages.filterMap (rendered? host context), IsBySlug page.settings := by
    intro page hPage
    obtain ⟨original, hOriginal, -, rfl⟩ := mem_filterMap_rendered?.1 hPage
    exact hSlug original hOriginal
  have hLines : (permalinkLines (publishPages host options pages context).2.files).Perm
      ((pages.filter fun page => (renderFault? host context page).isNone).flatMap linesBySlug) := by
    have hAll := (hPerm.filter fun file => file.type = .html).map fun file =>
      permalinkLine? file.content
    have hComposed := hOutputs.permalinkLines_eq hRendered
    rw [filterMap_rendered?, List.flatMap_map] at hComposed
    simp only [linesBySlug_validated] at hComposed
    rw [← hComposed]
    exact hAll
  refine ⟨hLines, ?_⟩
  rw [hLines.nodup_iff, nodup_flatMap_linesBySlug_iff
    (hApart.distinct.sublist (List.filter_sublist.map _))]
  simp

/-- The index and a page in two languages. -/
def bilingualSite : Site where
  pages := [⟨"", {}, .leaf {}⟩, ⟨"Home", { languagesList := some "en, fr" }, .leaf {}⟩]

/-- The two files of the page in two languages have one line. -/
theorem bilingualSite_permalinkLines :
    PathsApart {} bilingualSite.pages ∧
      (∀ page ∈ bilingualSite.pages, IsBySlug page.settings.validate.1) ∧
      (publishPages bilingualSite.host {} bilingualSite.pages (Context.start {} 0 [])).1 = none ∧
      (permalinkLines (publishPages bilingualSite.host {} bilingualSite.pages
        (Context.start {} 0 [])).2.files).Perm
          [some "permalink: \"/index.html\"", some "permalink: \"/home/index.html\"",
            some "permalink: \"/home/index.html\""] ∧
      ¬ (permalinkLines (publishPages bilingualSite.host {} bilingualSite.pages
        (Context.start {} 0 [])).2.files).Nodup := by
  have hApart : PathsApart {} bilingualSite.pages := by
    have hVariants : ∀ page ∈ bilingualSite.pages, ∀ other ∈ bilingualSite.pages,
        pagePath {} (pageSlug other.name) ∉ variantPaths {} page := by
      decide +kernel
    exact ⟨by decide +kernel, fun page hPage other hOther _ => hVariants page hPage other hOther⟩
  have hSlug : ∀ page ∈ bilingualSite.pages, IsBySlug page.settings.validate.1 := by
    have hBlank : ∀ page ∈ bilingualSite.pages, nonBlank? page.settings.pageData = none ∧
        nonBlank? page.settings.permalink = none := by
      decide
    exact fun page hPage => isBySlug_validate (hBlank page hPage).1 (hBlank page hPage).2
  have hOk : (publishPages bilingualSite.host {} bilingualSite.pages
      (Context.start {} 0 [])).1 = none := by
    decide +kernel
  obtain ⟨hLines, hNodup⟩ := publishPages_permalinkLines rfl hApart hSlug hOk
  have hConcrete : (bilingualSite.pages.filter fun page =>
      (renderFault? bilingualSite.host (Context.start {} 0 []) page).isNone).flatMap linesBySlug =
        [some "permalink: \"/index.html\"", some "permalink: \"/home/index.html\"",
          some "permalink: \"/home/index.html\""] := by
    decide +kernel
  rw [hConcrete] at hLines
  refine ⟨hApart, hSlug, hOk, hLines, ?_⟩
  rw [hLines.nodup_iff]
  decide

/-- Pages with distinct slugs, each with text, and without data and permalinks. -/
def OwnSlugs (pages : List Page) : Prop :=
  (pages.map fun page => pageSlug page.name).Nodup ∧ ∀ page ∈ pages, pageSlug page.name ≠ "" ∧
    page.settings.pageData = none ∧ page.settings.permalink = none

/-- Own slugs do not make distinct lines: a page may have two languages. Nor do they when no page
has: the name of a page in its language may be the slug of another page, whose file then stays as it
was rendered, with front matter of its own. -/
theorem permalinkLines_not_nodup :
    (¬ ∀ (host : Host) (options : Options) (context : Context) (pages : List Page),
      options.enabled = true → OwnSlugs pages →
      (publishPages host options pages context).1 = none →
      (permalinkLines (publishPages host options pages context).2.files).Nodup) ∧
    ¬ ∀ (host : Host) (options : Options) (context : Context) (pages : List Page),
      options.enabled = true → OwnSlugs pages →
      (∀ page ∈ pages, page.settings.languages.length ≤ 1) →
      (publishPages host options pages context).1 = none →
      (permalinkLines (publishPages host options pages context).2.files).Nodup := by
  have hBilingual : OwnSlugs bilingualSite.pages := ⟨by decide +kernel, by decide +kernel⟩
  have hNamesake : OwnSlugs
      [⟨"Blog", { languagesList := some "en" }, .leaf {}⟩,
       ⟨"Blog en", {}, .leaf { content := "---\npermalink: \"/blog-en/index.html\"\n---\n" }⟩] :=
    ⟨by decide +kernel, by decide +kernel⟩
  constructor
  · intro h
    have hSite := h bilingualSite.host {} (Context.start {} 0 []) _ rfl hBilingual
      (by decide +kernel)
    exact absurd hSite (by decide +kernel)
  · intro h
    have hSite := h (Site.host {}) {} (Context.start {} 0 []) _ rfl hNamesake (by decide +kernel)
      (by decide +kernel)
    exact absurd hSite (by decide +kernel)

end PagePress
