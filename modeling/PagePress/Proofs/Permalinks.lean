import PagePress.FrontMatter
import PagePress.Proofs.Numbering.Pattern
import PagePress.Proofs.OneLine
import PagePress.Proofs.Slugs
import PagePress.Proofs.Validation

/-!
# Permalink lines

The generator reads the address of a page from the front matter of its template: the lines between
the mark at its start and the next one. A page that is not generated from data and has no permalink
of its own has an address made from its slug. Its permalink line is the first line of its front
matter, in whatever language, and it tells the slug and nothing else of the page.

## Main results

* `slugLine_inj` — pages with different slugs have different permalink lines.
* `isBySlug_validate` — a page without data and permalink is addressed by its slug.
* `run_frontMatter` — the front matter of a page addressed by its slug starts with that line.
-/

namespace PagePress

/-! ## Characters of slugs -/

/-- A slug has small letters, digits and dashes only. -/
theorem isWordChar_of_mem_slugify {c : Char} {text : String} (h : c ∈ (slugify text).toList) :
    Slug.isWordChar c = true ∨ c = '-' := by
  simpa [Slug.isKept] using Slug.isKept_of_isNormal (isNormal_slugify text) h

theorem isOneLine_pageSlug (name : String) : Text.isOneLine (pageSlug name) = true :=
  Text.isOneLine_of_forall (by decide) (by decide) fun _ hc => isWordChar_of_mem_slugify hc

theorem not_mem_pageSlug (name : String) : '"' ∉ (pageSlug name).toList :=
  fun hm => absurd (isWordChar_of_mem_slugify hm) (by decide)

namespace FrontMatter

/-! ## Reading the permalink of a file -/

/-- The lines of the front matter that a file starts with. -/
def headerLines (content : String) : List String :=
  match Text.lines content with
  | [] => []
  | first :: rest => if first = "---" then rest.takeWhile (· ≠ "---") else []

/-- The line of a file that gives the address of its page. -/
def permalinkLine? (content : String) : Option String :=
  (headerLines content).find? fun line => "permalink: ".toList.isPrefixOf line.toList

/-- A text starts with the mark of front matter and a line. -/
def OpensWith (line text : String) : Prop :=
  ∃ rest, text = "---" ++ "\n" ++ (line ++ "\n" ++ rest)

variable {line text : String}

theorem OpensWith.append (h : OpensWith line text) (more : String) :
    OpensWith line (text ++ more) := by
  obtain ⟨rest, rfl⟩ := h
  refine ⟨rest ++ more, ?_⟩
  simp only [String.append_assoc]

/-- What follows a permalink line does not matter to it. -/
theorem OpensWith.permalinkLine?_eq (h : OpensWith line text) (hLine : Text.isOneLine line = true)
    (hKey : "permalink: ".toList.isPrefixOf line.toList = true) :
    permalinkLine? text = some line := by
  obtain ⟨rest, rfl⟩ := h
  have hMark : line ≠ "---" := by
    rintro rfl
    exact absurd hKey (by decide)
  have hTake : (line :: Text.lines rest).takeWhile (· ≠ "---") =
      line :: (Text.lines rest).takeWhile (· ≠ "---") :=
    List.takeWhile_cons_of_pos (by simpa using hMark)
  rw [permalinkLine?, headerLines, Text.lines_cons (by decide), Text.lines_cons hLine]
  simp only [↓reduceIte, hTake]
  exact List.find?_cons_of_pos hKey

/-! ## Addresses by slug -/

/-- The permalink line of a page that is addressed by its slug. -/
def slugLine (slug : String) : String :=
  if slug = "index" then "permalink: \"/index.html\""
  else "permalink: \"/" ++ slug ++ "/index.html\""

theorem slugLine_inj {a b : String} : slugLine a = slugLine b ↔ a = b := by
  have hIndex : ∀ slug : String, "permalink: \"/" ++ slug ++ "/index.html\"" ≠
      "permalink: \"/index.html\"" := by
    intro slug hEq
    have hLength := congrArg (fun text => text.toList.length) hEq
    simp [String.toList_append] at hLength
  refine ⟨fun h => ?_, congrArg slugLine⟩
  unfold slugLine at h
  split at h <;> split at h
  · rename_i ha hb
    rw [ha, hb]
  · exact absurd h.symm (hIndex b)
  · exact absurd h (hIndex a)
  · simpa using h

theorem isOneLine_slugLine (name : String) : Text.isOneLine (slugLine (pageSlug name)) = true := by
  unfold slugLine
  split
  · decide
  · simp only [Text.isOneLine_append, isOneLine_pageSlug]
    decide

theorem isPrefixOf_slugLine (slug : String) :
    "permalink: ".toList.isPrefixOf (slugLine slug).toList = true := by
  unfold slugLine
  split
  · decide
  · simp [String.toList_append]

/-- Settings that leave the address of a page to its slug: the page is not generated from data and
its permalink holds nothing. -/
structure IsBySlug (settings : PageSettings) : Prop where
  data : settings.isCollectionPage = false
  permalink : ownPermalink settings = .ok none

/-- A page without data and without a permalink is addressed by its slug. -/
theorem isBySlug_validate {s : PageSettings} (hData : nonBlank? s.pageData = none)
    (hPermalink : nonBlank? s.permalink = none) : IsBySlug s.validate.1 := by
  have hText : ∀ setting : ExpressionSetting, nonBlank? (setting.get s) = none →
      nonBlank? (setting.get s.validate.1) = none := by
    intro setting hBlank
    rw [get_validate, readableText?_eq]
    split
    · exact hBlank
    · rfl
  constructor
  · have hNone : nonBlank? s.validate.1.pageData = none := hText .pageData hData
    rw [PageSettings.isCollectionPage, hNone]
    rfl
  · have hNone := hText .permalink hPermalink
    unfold ownPermalink
    cases hRaw : s.validate.1.permalink with
    | none => rfl
    | some raw =>
        have hEmpty : Text.trim raw = "" := by
          rw [ExpressionSetting.get, hRaw] at hNone
          simpa [nonBlank?] using hNone
        simp [parseSetting, parseTrimmed, hEmpty]

variable {settings : PageSettings}

/-- The line of a default address, which has nothing to escape. -/
theorem quotedLine_slug (h : settings.isCollectionPage = false) (name : String) :
    ∃ address, defaultPermalink settings (pageSlug name) = some address ∧
      quotedLine "permalink" address = slugLine (pageSlug name) := by
  unfold defaultPermalink slugLine
  simp only [h, Bool.false_eq_true, ↓reduceIte]
  split
  · exact ⟨_, rfl, by decide⟩
  · refine ⟨_, rfl, ?_⟩
    have hPlain : '"' ∉ ("/" ++ pageSlug name ++ "/index.html").toList := by
      simp [String.toList_append, not_mem_pageSlug]
    rw [quotedLine, backslashQuotes_of_not_mem hPlain]
    simp [← String.toList_inj, String.toList_append]

/-- A block starts with its mark and the first of its lines with text. -/
theorem block_cons {line : String} (hLine : Text.isBlankText line = false) (lines : List String) :
    OpensWith line (block (line :: lines)) := by
  have hMark : Text.isBlankText "---" = false := by decide
  refine ⟨"\n".intercalate
    ((lines.filter fun line => !Text.isBlankText line) ++ ["", "---", ""]), ?_⟩
  rw [block, List.filter_cons_of_pos (by rw [hMark]; rfl),
    List.filter_cons_of_pos (by rw [hLine]; rfl), List.cons_append, List.cons_append,
    String.intercalate_cons_cons]
  cases hRest : (lines.filter fun line => !Text.isBlankText line) ++ ["", "---", ""] with
  | nil => simp at hRest
  | cons next others => rw [String.intercalate_cons_cons]

/-- The front matter of a page that is addressed by its slug starts with its permalink line in every
language, and takes no variable. -/
theorem run_frontMatter (options : Options) (h : IsBySlug settings) (name : String)
    (body : Element) (collection lang : Option String) (context : Context) :
    ∃ header, (frontMatter options settings (pageSlug name) body collection lang).runIn context =
      (.ok header, context) ∧ OpensWith (slugLine (pageSlug name)) header := by
  obtain ⟨address, hAddress, hLine⟩ := quotedLine_slug h.data name
  have hData : paginationData options settings = .ok none := by
    have hNone : nonBlank? settings.pageData = none := by
      simpa [PageSettings.isCollectionPage] using h.data
    rw [paginationData, hNone]
    rfl
  have hText : Text.isBlankText (slugLine (pageSlug name)) = false := by
    have hKey : Text.isBlankText "permalink" = false := by decide
    rw [← hLine, quotedLine, String.append_assoc, String.append_assoc, isBlankText_append, hKey]
    rfl
  refine ⟨_, ?_, block_cons hText (quotedLine? "lang" lang ++
    quotedLine? "collection" collection ++ navigationLines settings)⟩
  rw [← hLine, frontMatter, Pass.runIn_bind, Pass.runIn_ofExcept, hData]
  simp only [permalink, Pass.runIn_bind, Pass.runIn_ofExcept, h.permalink, Pass.runIn_pure,
    hAddress, List.nil_append, List.cons_append, List.append_assoc]

end FrontMatter

end PagePress
