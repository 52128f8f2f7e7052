import PagePress.Proofs.Publication.Composition
import PagePress.Proofs.Publication.Frame
import PagePress.Proofs.Publication.Outcome

/-!
# Data files beside their templates

Every file of a pass is a template or a data file, and its path tells which. Pages may share paths,
and a later page may take away a template that an earlier one has left. Still no data file loses its
template: at each path there are as many files as pages were published there, and a page is never
published at the path of a data file alone.

## Main results

* `publishPages_isPageFile` — every file is a template or a data file, as its path says.
* `publishPages_sidecars` — data files have templates, and pages with data have data files.
-/

namespace PagePress

open Publisher Assembly

variable {host : Host} {options : Options} {context next : Context} {page : Page}
  {file : PublishedFile} {files : List PublishedFile} {draft after : Draft}

/-! ## Names of variants -/

namespace Assembly

/-- The name of a page in one of the languages that it gets front matter for. -/
def nameIn (slug : String) : Option String → String
  | none => slug
  | some lang => languageName slug lang

theorem fileNames_eq (page : Page) :
    fileNames page = (headerLanguages page).map (nameIn (pageSlug page.name)) := by
  unfold fileNames headerLanguages
  cases page.settings.languages with
  | nil => rfl
  | cons lang langs => rw [List.map_map]; rfl

theorem pathIn_templatePath (options : Options) (slug : String) (lang : Option String) :
    pathIn ".html" lang (templatePath options slug) = templatePath options (nameIn slug lang) := by
  cases lang with
  | none => rfl
  | some lang => exact withLanguage_templatePath options slug lang

theorem pathIn_sidecarPath (options : Options) (slug : String) (lang : Option String) :
    pathIn ".11tydata.js" lang (sidecarPath options slug) =
      sidecarPath options (nameIn slug lang) := by
  cases lang with
  | none => rfl
  | some lang => exact withLanguage_sidecarPath options slug lang

/-- A path ends like a data file when it is that of one, and then the stem is all before. -/
theorem sidecarPath_eq_append {name stem : String}
    (h : sidecarPath options name = stem ++ ".11tydata.js") :
    templatePath options name = stem ++ ".html" := by
  have hStem : Route.templateFolder options ++ name = stem := (String.append_left_inj _).1 h
  rw [templatePath, hStem]

theorem templatePath_ne_append (options : Options) (name stem : String) :
    templatePath options name ≠ stem ++ ".11tydata.js" := by
  intro h
  have hLast := congrArg (fun path : String => path.toList.getLast?) h
  simp [templatePath] at hLast

/-! ## Files of pages -/

/-- A file is a template at the path of one, or a data file at the path of one. -/
inductive IsPageFile (options : Options) (file : PublishedFile) : Prop
  | template (name : String) (hPath : file.path = templatePath options name)
      (hType : file.type = .html)
  | sidecar (name : String) (hPath : file.path = sidecarPath options name)
      (hType : file.type = .other)

theorem IsPageFile.type_of_sidecarPath (h : IsPageFile options file) {name : String}
    (hName : file.path = sidecarPath options name) : file.type = .other := by
  cases h with
  | template other hPath _ =>
      exact absurd (hPath.symm.trans hName) (templatePath_ne_sidecarPath options other name)
  | sidecar _ _ hType => exact hType

/-- What a page is composed of are templates and data files. -/
theorem IsComposed.isPageFile (h : IsComposed host options page file context files next)
    (hPath : file.path = pagePath options (pageSlug page.name)) :
    ∀ part ∈ files, IsPageFile options part := by
  obtain ⟨data, between, texts, hData, -, -, rfl⟩ := h
  intro part hPart
  rw [← List.map_uncurry_zip_eq_zipWith] at hPart
  obtain ⟨group, hGroup, hPart⟩ := List.mem_flatten.1 hPart
  obtain ⟨⟨lang, header⟩, -, rfl⟩ := List.mem_map.1 hGroup
  rcases List.mem_cons.1 hPart with rfl | hPart
  · refine .template (nameIn (pageSlug page.name) lang) ?_ rfl
    rw [← pathIn_templatePath, ← pagePath_eq, ← hPath]
  · obtain ⟨sidecar, hSidecar, rfl⟩ := Option.map_eq_some_iff.1 (Option.mem_toList.1 hPart)
    cases hData with
    | without => cases hSidecar
    | beside =>
        cases hSidecar
        refine .sidecar (nameIn (pageSlug page.name) lang) ?_ rfl
        rw [← pathIn_sidecarPath, ← dataPath_eq]

end Assembly

/-- One page adds templates and data files only. -/
theorem PageStep.isPageFile {outcome : Option PublishError}
    (h : PageStep host options page draft outcome after)
    (hDraft : ∀ file ∈ draft.files, IsPageFile options file) :
    ∀ file ∈ after.files, IsPageFile options file := by
  cases h with
  | missing | notHtml | stopped => exact hDraft
  | dropped hFound =>
      rw [hFound.files_eq] at hDraft
      simp only [List.forall_mem_append, List.forall_mem_cons] at hDraft ⊢
      exact ⟨hDraft.1, hDraft.2.2⟩
  | placed hFound hRun =>
      have hNew := (pageFiles_composed hFound.html hRun).isPageFile hFound.path
      rw [hFound.files_eq] at hDraft
      simp only [List.forall_mem_append, List.forall_mem_cons] at hDraft hNew ⊢
      exact ⟨⟨hDraft.1, hNew.1, hDraft.2.2⟩, hNew.2⟩

theorem isPageFile_of_renderings {later : Context} {pages : List Page}
    (h : List.Forall₂ (IsRendering host options context later) pages files) :
    ∀ file ∈ files, IsPageFile options file := by
  induction h with
  | nil => exact fun _ hm => absurd hm List.not_mem_nil
  | cons hFile _ ih =>
      have hTemplate := hFile.path.trans (pagePath_eq options _)
      exact List.forall_mem_cons.2 ⟨.template _ hTemplate hFile.type, ih⟩

/-- Every file of a pass is a template or a data file, and its path tells which. -/
theorem publishPages_isPageFile (host : Host) (options : Options) (pages : List Page)
    (context : Context) :
    ∀ file ∈ (publishPages host options pages context).2.files, IsPageFile options file := by
  obtain ⟨draft, -, hFiles, -, hRun⟩ := publishPages_run host options pages context
  have hDraft := isPageFile_of_renderings hFiles
  rw [hRun]
  cases options.enabled with
  | false => exact hDraft
  | true =>
      apply assemble_invariant fun now => ∀ file ∈ now.files, IsPageFile options file
      · exact fun _ _ _ _ _ hStep => hStep.isPageFile
      · exact hDraft

/-! ## Templates and their data files -/

theorem mem_publishedPaths {path : String} :
    path ∈ publishedPaths host options context page ↔
      ∃ name ∈ publishedNames options context page, path = templatePath options name ∨
        hasData host page = true ∧ path = sidecarPath options name := by
  simp only [publishedPaths, List.mem_flatMap, mem_filePaths]

/-- Pages that are done leave a template wherever they leave a data file. -/
theorem Assembly.Stock.template_of_sidecar {pages : List Page} {name : String}
    (h : Stock options [] (pages.flatMap (publishedPaths host options context)) files)
    (hName : sidecarPath options name ∈ files.map PublishedFile.path) :
    ∃ template ∈ files, template.path = templatePath options name ∧ template.type = .html := by
  obtain ⟨page, hPage, hPath⟩ := List.mem_flatMap.1 (h.paths.mem_iff.1 hName)
  obtain ⟨other, hOther, hTemplate | ⟨-, hSidecar⟩⟩ := mem_publishedPaths.1 hPath
  · exact absurd hTemplate.symm (templatePath_ne_sidecarPath options other name)
  · obtain rfl : name = other := sidecarPath_inj.1 hSidecar
    have hThere : templatePath options name ∈ files.map PublishedFile.path :=
      h.paths.mem_iff.2 (List.mem_flatMap.2
        ⟨page, hPage, mem_publishedPaths.2 ⟨name, hOther, .inl rfl⟩⟩)
    obtain ⟨template, hMem, hTemplate⟩ := List.mem_map.1 hThere
    exact ⟨template, hMem, hTemplate, h.typed template hMem name hTemplate⟩

/-- A page that does not fail is published under all its names. -/
theorem publishedNames_of_pageFault? (h : pageFault? host options context page = none) :
    rendered? host context page = some (validated page).1 ∧
      publishedNames options context (validated page).1 = fileNames (validated page).1 := by
  obtain ⟨hRender, hHeader⟩ := Option.or_eq_none_iff.1 h
  exact ⟨rendered?_eq_some.2 ⟨hRender, rfl⟩, by rw [publishedNames, hHeader]⟩

/-- Data files lie next to their templates. When a pass for the generator does not fail, every file
with the extension of a data file has a template with the same stem beside it. And every page that
did not fail and whose query has a payload with text has a data file with the stem of its template,
in each of its languages. -/
theorem publishPages_sidecars {pages : List Page} (hEnabled : options.enabled = true)
    (hOk : (publishPages host options pages context).1 = none) :
    (∀ file ∈ (publishPages host options pages context).2.files, ∀ stem,
        file.path = stem ++ ".11tydata.js" →
          ∃ template ∈ (publishPages host options pages context).2.files,
            template.path = stem ++ ".html" ∧ template.type = .html) ∧
      ∀ page ∈ pages, pageFault? host options context page = none →
        hasData host (validated page).1 = true →
          ∀ lang ∈ headerLanguages (validated page).1, ∃ stem,
            pathIn ".html" lang (pagePath options (pageSlug page.name)) = stem ++ ".html" ∧
              ∃ file ∈ (publishPages host options pages context).2.files,
                file.path = stem ++ ".11tydata.js" ∧ file.type = .other := by
  obtain ⟨hStock, -⟩ := publishPages_stock hEnabled hOk
  have hFiles := publishPages_isPageFile host options pages context
  constructor
  · intro file hFile stem hPath
    cases hFiles file hFile with
    | template name hTemplate _ =>
        exact absurd (hTemplate.symm.trans hPath) (templatePath_ne_append options name stem)
    | sidecar name hSidecar _ =>
        rw [← sidecarPath_eq_append (hSidecar.symm.trans hPath)]
        exact hStock.template_of_sidecar (hSidecar ▸ List.mem_map_of_mem hFile)
  · intro page hPage hFault hData lang hLang
    obtain ⟨hRendered, hNames⟩ := publishedNames_of_pageFault? hFault
    have hName : nameIn (pageSlug page.name) lang ∈
        publishedNames options context (validated page).1 := by
      rw [hNames, fileNames_eq]
      exact List.mem_map_of_mem hLang
    have hThere : sidecarPath options (nameIn (pageSlug page.name) lang) ∈
        (publishPages host options pages context).2.files.map PublishedFile.path :=
      hStock.paths.mem_iff.2 (List.mem_flatMap.2 ⟨_, List.mem_filterMap.2 ⟨page, hPage, hRendered⟩,
        mem_publishedPaths.2 ⟨_, hName, .inr ⟨hData, rfl⟩⟩⟩)
    obtain ⟨file, hFile, hPath⟩ := List.mem_map.1 hThere
    refine ⟨Route.templateFolder options ++ nameIn (pageSlug page.name) lang, ?_, file, hFile,
      hPath, (hFiles file hFile).type_of_sidecarPath hPath⟩
    rw [pagePath_eq, pathIn_templatePath]
    rfl

/-- The second variant of the page with data has a data file, and that has its template. -/
theorem mixedSite_sidecars : ∃ stem,
    pathIn ".html" (some "fr") "/home.html" = stem ++ ".html" ∧
      ∃ file ∈ (publishPages mixedSite.host {} mixedSite.pages (Context.start {} 0 [])).2.files,
        (file.path = stem ++ ".11tydata.js" ∧ file.type = .other) ∧
          ∃ template ∈ (publishPages mixedSite.host {} mixedSite.pages
              (Context.start {} 0 [])).2.files,
            template.path = stem ++ ".html" ∧ template.type = .html := by
  have hOk : (publishPages mixedSite.host {} mixedSite.pages (Context.start {} 0 [])).1 = none := by
    decide +kernel
  obtain ⟨hTemplates, hSidecars⟩ := publishPages_sidecars rfl hOk
  have hHome := hSidecars _ List.mem_cons_self (by decide +kernel) (by decide +kernel)
  have hPath : pagePath {} (pageSlug "Home") = "/home.html" := by decide +kernel
  have hLanguages : headerLanguages (validated ⟨"Home",
      { languagesList := some "en, fr", ogTitle := some "[" }, .leaf {}⟩).1 =
        [some "en", some "fr"] := by
    decide +kernel
  rw [hLanguages, hPath] at hHome
  obtain ⟨stem, hStem, file, hFile, hSidecar⟩ := hHome (some "fr") (by simp)
  exact ⟨stem, hStem, file, hFile, hSidecar, hTemplates file hFile stem hSidecar.1⟩

end PagePress
