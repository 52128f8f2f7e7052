import Mathlib.Data.List.Nodup
import PagePress.Publication.Assembly

/-!
# Paths of published files

The template and the data file of a page lie in one folder and have one name with two extensions.
The folder depends on the options only. The name is the slug of the page, with a dash and the
language behind it when the page has languages. So a path tells the name and the extension, and two
published files meet exactly where two names do.

## Main results

* `pagePath_eq`, `dataPath_eq` — the paths of a page are folder, name and extension.
* `withLanguage_append` — the path of a language is that of the longer name.
* `nodup_flatMap_filePaths` — paths are distinct exactly when the names are.
-/

namespace PagePress

namespace Route

/-! ## Joined paths -/

theorem dropTrailingSlash_cons {cs : List Char} (h : cs ≠ []) (c : Char) :
    dropTrailingSlash (c :: cs) = c :: dropTrailingSlash cs := by
  rw [dropTrailingSlash]
  exact fun _ hNil => h hNil

theorem dropTrailingSlash_append {c : Char} (hc : c ≠ '/') (cs : List Char) :
    dropTrailingSlash (cs ++ [c]) = cs ++ [c] := by
  induction cs with
  | nil => simp [dropTrailingSlash, hc]
  | cons first rest ih => rw [List.cons_append, dropTrailingSlash_cons (by simp), ih]

theorem dropTrailingSlash_slash (cs : List Char) : dropTrailingSlash (cs ++ ['/']) = cs := by
  induction cs with
  | nil => rfl
  | cons first rest ih => rw [List.cons_append, dropTrailingSlash_cons (by simp), ih]

theorem dropTrailingSlash_cases (cs : List Char) :
    dropTrailingSlash cs = cs ∨ cs = dropTrailingSlash cs ++ ['/'] := by
  rcases List.eq_nil_or_concat cs with rfl | ⟨front, c, rfl⟩
  · exact .inl rfl
  · rw [List.concat_eq_append]
    by_cases hSlash : c = '/'
    · rw [hSlash, dropTrailingSlash_slash]
      exact .inr rfl
    · exact .inl (dropTrailingSlash_append hSlash front)

/-- A segment with a slash before it and none behind it loses that slash only. -/
theorem trimSlashes_slash {text : String} {cs : List Char} {c : Char}
    (h : text.toList = cs ++ [c]) (hc : c ≠ '/') : trimSlashes ("/" ++ text) = text := by
  have hSlash : ("/" ++ text).toList = '/' :: text.toList := by
    rw [String.toList_append]
    rfl
  rw [trimSlashes, hSlash, dropLeadingSlash, h, dropTrailingSlash_append hc, ← h,
    String.ofList_toList]

theorem intercalate_append_singleton (parts : List String) (last : String) :
    "/".intercalate (parts ++ [last]) = String.join (parts.map (· ++ "/")) ++ last := by
  induction parts with
  | nil => simp
  | cons part rest ih =>
      obtain ⟨next, others, hNext⟩ : ∃ next others, rest ++ [last] = next :: others := by
        cases rest with
        | nil => exact ⟨last, [], rfl⟩
        | cons next others => exact ⟨next, others ++ [last], rfl⟩
      rw [List.cons_append, hNext, String.intercalate_cons_cons, ← hNext, ih, List.map_cons,
        String.join_cons]
      simp only [String.append_assoc]

/-- The folder of templates, up to the slash behind it. -/
def templateFolder (options : Options) : String :=
  if options.enabled then
    let folders := options.folders
    "/" ++ String.join ((((rootFolders folders ++ [folders.html]).map trimSlashes).filter
      fun segment => !segment.isEmpty).map (· ++ "/"))
  else "/"

/-- A template lies in the folder of templates under the text behind its first slash. -/
theorem location_html (options : Options) {text : String} {cs : List Char} {c : Char}
    (h : text.toList = cs ++ [c]) (hc : c ≠ '/') :
    location options .html ("/" ++ text) = templateFolder options ++ text := by
  have hText : text ≠ "" := by
    intro hEmpty
    rw [hEmpty] at h
    simp at h
  unfold location templateFolder
  cases options.enabled with
  | false => simp
  | true =>
      have hSegments : ∀ root : List String, root ++ [options.folders.html, "/" ++ text] =
          (root ++ [options.folders.html]) ++ ["/" ++ text] := by simp
      simp only [Bool.not_true, Bool.false_eq_true, ↓reduceIte, joined]
      rw [hSegments, List.map_append, List.filter_append, List.map_singleton,
        trimSlashes_slash h hc]
      simp only [List.filter_cons, List.filter_nil, String.isEmpty_eq_false_iff.2 hText,
        Bool.not_false, ↓reduceIte]
      rw [intercalate_append_singleton, String.append_assoc]

/-! ## Languages -/

theorem after?_append (ps cs : List Char) : after? ps (ps ++ cs) = some cs := by
  induction ps with
  | nil => rfl
  | cons p ps ih => simp [after?, ih]

theorem after?_eq_some {ps cs rest : List Char} (h : after? ps cs = some rest) :
    cs = ps ++ rest := by
  induction ps generalizing cs with
  | nil => exact Option.some.inj h
  | cons p ps ih =>
      cases cs with
      | nil => cases h
      | cons c cs =>
          rw [after?] at h
          split at h
          · rename_i hSame
            rw [hSame, ih h, List.cons_append]
          · cases h

theorem withLanguage_append (stem extension lang : String) :
    withLanguage extension lang (stem ++ extension) = stem ++ "-" ++ lang ++ extension := by
  have hAfter : after? extension.toList.reverse (stem ++ extension).toList.reverse =
      some stem.toList.reverse := by
    rw [String.toList_append, List.reverse_append, after?_append]
  rw [withLanguage, hAfter]
  simp

end Route

namespace Assembly

/-! ## Names -/

/-- The path of the template with a name. -/
def templatePath (options : Options) (name : String) : String :=
  Route.templateFolder options ++ name ++ ".html"

/-- The path of the data file with a name. -/
def sidecarPath (options : Options) (name : String) : String :=
  Route.templateFolder options ++ name ++ ".11tydata.js"

/-- The paths of the files with a name: the template, and the data file when there is one. -/
def filePaths (options : Options) (hasData : Bool) (name : String) : List String :=
  templatePath options name :: if hasData then [sidecarPath options name] else []

/-- The name of a page in a language. -/
def languageName (slug lang : String) : String := slug ++ "-" ++ lang

/-- The names under which a page is published: its slug, or one name for each language. -/
def fileNames (page : Page) : List String :=
  match page.settings.languages with
  | [] => [pageSlug page.name]
  | langs => langs.map (languageName (pageSlug page.name))

theorem pagePath_eq (options : Options) (slug : String) :
    pagePath options slug = templatePath options slug := by
  have hLast : (slug ++ ".html").toList = (slug.toList ++ ['.', 'h', 't', 'm']) ++ ['l'] := by
    rw [String.toList_append, List.append_assoc]
    rfl
  rw [pagePath, String.append_assoc, Route.location_html options hLast (by decide), templatePath,
    String.append_assoc]

theorem dataPath_eq (options : Options) (slug : String) :
    dataPath options slug = sidecarPath options slug := by
  have hLast : (slug ++ ".11tydata.js").toList =
      (slug.toList ++ ['.', '1', '1', 't', 'y', 'd', 'a', 't', 'a', '.', 'j']) ++ ['s'] := by
    rw [String.toList_append, List.append_assoc]
    rfl
  rw [dataPath, String.append_assoc, Route.location_html options hLast (by decide), sidecarPath,
    String.append_assoc]

theorem withLanguage_templatePath (options : Options) (slug lang : String) :
    Route.withLanguage ".html" lang (templatePath options slug) =
      templatePath options (languageName slug lang) := by
  rw [templatePath, Route.withLanguage_append, templatePath, languageName]
  simp only [String.append_assoc]

theorem withLanguage_sidecarPath (options : Options) (slug lang : String) :
    Route.withLanguage ".11tydata.js" lang (sidecarPath options slug) =
      sidecarPath options (languageName slug lang) := by
  rw [sidecarPath, Route.withLanguage_append, sidecarPath, languageName]
  simp only [String.append_assoc]

theorem templatePath_inj {options : Options} {a b : String} :
    templatePath options a = templatePath options b ↔ a = b := by
  simp [templatePath]

theorem sidecarPath_inj {options : Options} {a b : String} :
    sidecarPath options a = sidecarPath options b ↔ a = b := by
  simp [sidecarPath]

/-- No template lies where a data file does: the last letters of their extensions differ. -/
theorem templatePath_ne_sidecarPath (options : Options) (a b : String) :
    templatePath options a ≠ sidecarPath options b := by
  intro h
  have hLast := congrArg (fun path : String => path.toList.getLast?) h
  simp [templatePath, sidecarPath] at hLast

theorem mem_filePaths {options : Options} {hasData : Bool} {name path : String} :
    path ∈ filePaths options hasData name ↔
      path = templatePath options name ∨ hasData = true ∧ path = sidecarPath options name := by
  cases hasData <;> simp [filePaths]

theorem nodup_filePaths (options : Options) (hasData : Bool) (name : String) :
    (filePaths options hasData name).Nodup := by
  cases hasData <;> simp [filePaths, templatePath_ne_sidecarPath]

theorem disjoint_filePaths {options : Options} {a b : Bool × String} :
    List.Disjoint (filePaths options a.1 a.2) (filePaths options b.1 b.2) ↔ a.2 ≠ b.2 := by
  constructor
  · intro h hEq
    exact h (mem_filePaths.2 (.inl rfl)) (mem_filePaths.2 (.inl (by rw [hEq])))
  · intro hNe path ha hb
    rcases mem_filePaths.1 ha with rfl | ⟨-, rfl⟩ <;> rcases mem_filePaths.1 hb with h | ⟨-, h⟩
    · exact hNe (templatePath_inj.1 h)
    · exact templatePath_ne_sidecarPath options _ _ h
    · exact templatePath_ne_sidecarPath options _ _ h.symm
    · exact hNe (sidecarPath_inj.1 h)

/-- Files lie at distinct paths exactly when their names are distinct. -/
theorem nodup_flatMap_filePaths (options : Options) (entries : List (Bool × String)) :
    (entries.flatMap fun entry => filePaths options entry.1 entry.2).Nodup ↔
      (entries.map Prod.snd).Nodup := by
  have hNodup : ∀ entry ∈ entries, (filePaths options entry.1 entry.2).Nodup :=
    fun entry _ => nodup_filePaths options entry.1 entry.2
  rw [List.nodup_flatMap, and_iff_right hNodup, List.Nodup, List.pairwise_map]
  refine ⟨fun h => h.imp ?_, fun h => h.imp ?_⟩
  · intro a b hab
    exact disjoint_filePaths.1 hab
  · intro a b hab
    exact disjoint_filePaths.2 hab

end Assembly

end PagePress
