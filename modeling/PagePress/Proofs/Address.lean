import PagePress.Proofs.Permalinks
import PagePress.Proofs.StoredText

/-!
# The address of a page

The generator takes the address of a page from its pagination or from its permalink line. A page
that sets no permalink has one of the two when it counts as a collection page exactly if it gets
pagination, and these are decided apart: the first by the text of the setting, the second by what
the text says. They agree on every text but one that says nothing without being blank, an
expression without tokens. Such a page counts as a collection page and gets no pagination.

## Main results

* `paginationData_eq_none_iff` — which pages get no pagination.
* `headerLines_block` — the lines of front matter are read as they were put together.
* `frontMatter_address_iff` — which pages have pagination, and which have a permalink line.
-/

namespace PagePress

/-! ## Settings that say nothing -/

/-- A setting holds an expression without tokens. -/
def HoldsNoTokens (text : Option String) : Prop :=
  ∃ raw, text = some raw ∧ Expression.read (Text.trim raw) = .ok []

/-- A setting is absent or blank, or it holds an expression without tokens. -/
def SaysNothing (text : Option String) : Prop :=
  nonBlank? text = none ∨ HoldsNoTokens text

theorem nonBlank?_eq_none_iff {text : Option String} :
    nonBlank? text = none ↔ ∀ raw, text = some raw → Text.trim raw = "" := by
  cases text <;> simp [nonBlank?]

/-- What says nothing holds no setting. -/
theorem saysNothing_iff {text : Option String} (name : String) :
    SaysNothing text ↔ ∀ raw, text = some raw → parseSetting name raw = .ok none := by
  rw [SaysNothing, nonBlank?_eq_none_iff, HoldsNoTokens]
  cases text with
  | none => simp
  | some raw => simp [parseSetting_eq_none_iff]

/-- A blank text is no expression. -/
theorem HoldsNoTokens.nonBlank? {text : Option String} (h : HoldsNoTokens text) :
    PagePress.nonBlank? text ≠ none := by
  obtain ⟨raw, rfl, hRead⟩ := h
  rw [Ne, nonBlank?_eq_none_iff]
  intro hBlank
  rw [hBlank raw rfl] at hRead
  have hEmpty : (Expression.read "").isOk = false := by decide +kernel
  rw [hRead] at hEmpty
  cases hEmpty

namespace FrontMatter

variable {options : Options} {settings : PageSettings}

/-- Without a permalink the address comes from the slug. -/
theorem ownPermalink_of_saysNothing (h : SaysNothing settings.permalink) :
    ownPermalink settings = .ok none := by
  unfold ownPermalink
  cases hRaw : settings.permalink with
  | none => rfl
  | some raw => exact (saysNothing_iff _).1 h raw hRaw

/-- Pagination whose setting cannot be read fails. -/
theorem paginationData_of_error {raw : String} {error : PublishError}
    (hRaw : settings.pageData = some raw)
    (hParse : parseSetting ExpressionSetting.pageData.name raw = .error error) :
    paginationData options settings = .error error := by
  have hSome : (Text.trim raw).isEmpty = false := by
    cases hEmpty : (Text.trim raw).isEmpty with
    | false => rfl
    | true =>
        rw [parseSetting_eq_none_iff.2 (.inl (String.isEmpty_iff.1 hEmpty))] at hParse
        cases hParse
  have hText : nonBlank? (some raw) = some (Text.trim raw) := by simp [nonBlank?, hSome]
  rw [paginationData, hRaw, hText]
  simp only [parseSetting_trim (Text.trim_trim raw), hParse]
  rfl

/-- A page gets no pagination when its setting says nothing. -/
theorem paginationData_eq_none_iff (options : Options) (settings : PageSettings) :
    paginationData options settings = .ok none ↔ SaysNothing settings.pageData := by
  rw [saysNothing_iff ExpressionSetting.pageData.name]
  cases hRaw : settings.pageData with
  | none =>
      rw [paginationData, hRaw]
      exact iff_of_true rfl fun _ hSome => absurd hSome.symm (Option.some_ne_none _)
  | some raw =>
      have hOnly : (∀ other, some raw = some other →
          parseSetting ExpressionSetting.pageData.name other = .ok none) ↔
          parseSetting ExpressionSetting.pageData.name raw = .ok none := by
        simp
      rw [hOnly]
      cases hParse : parseSetting ExpressionSetting.pageData.name raw with
      | error error =>
          rw [paginationData_of_error hRaw hParse]
          exact iff_of_false (by rintro ⟨⟩) (by rintro ⟨⟩)
      | ok held =>
          rw [paginationData_of_parse options hRaw hParse]
          cases held with
          | none => exact iff_of_true rfl rfl
          | some setting =>
              refine iff_of_false ?_ (by rintro ⟨⟩)
              cases setting with
              | text path => rintro ⟨⟩
              | expression expression =>
                  dsimp only
                  cases paginationPath options expression <;> rintro ⟨⟩

/-! ## Lines of front matter -/

/-- The lines of a header about the pagination of a page. -/
def dataLines (settings : PageSettings) (data : Option String) : List String :=
  match data with
  | some data => paginationLines settings data
  | none => []

/-- The line of a header with the address of a page. -/
def addressLines (address : Option String) : List String :=
  match address with
  | some address => [quotedLine "permalink" address]
  | none => []

/-- The lines of a header about the language of a page, its collection and its navigation. -/
def otherLines (settings : PageSettings) (collection lang : Option String) : List String :=
  quotedLine? "lang" lang ++ quotedLine? "collection" collection ++ navigationLines settings

/-- All lines of the header of a page without a permalink. -/
def pageLines (settings : PageSettings) (slug : String) (collection lang data : Option String) :
    List String :=
  dataLines settings data ++ addressLines (defaultPermalink settings slug) ++
    otherLines settings collection lang

/-- Front matter is a block of its lines. -/
theorem frontMatter_lines {slug : String} {body : Element} {collection lang : Option String}
    {context next : Context} {header : String}
    (hRun : (frontMatter options settings slug body collection lang).runIn context =
      (.ok header, next)) :
    ∃ data address, paginationData options settings = .ok data ∧
      (permalink settings slug body).runIn context = (.ok address, next) ∧
      header = block (dataLines settings data ++ addressLines address ++
        otherLines settings collection lang) := by
  obtain ⟨data, between, hData, hRest⟩ := Pass.runIn_bind_eq_ok hRun
  rw [Pass.runIn_ofExcept] at hData
  obtain rfl : context = between := congrArg Prod.snd hData
  obtain ⟨address, after, hAddress, hRest⟩ := Pass.runIn_bind_eq_ok hRest
  rw [Pass.runIn_pure] at hRest
  obtain ⟨hHeader, rfl⟩ := Prod.mk.inj hRest
  refine ⟨data, address, congrArg Prod.fst hData, hAddress, ?_⟩
  rw [← Except.ok.inj hHeader, otherLines, ← List.append_assoc, ← List.append_assoc]
  rfl

/-- Without a permalink the address is the default one. -/
theorem frontMatter_eq_ok {slug : String} {body : Element} {collection lang : Option String}
    {context next : Context} {header : String} (hOwn : ownPermalink settings = .ok none)
    (hRun : (frontMatter options settings slug body collection lang).runIn context =
      (.ok header, next)) :
    ∃ data, paginationData options settings = .ok data ∧
      header = block (pageLines settings slug collection lang data) := by
  obtain ⟨data, address, hData, hAddress, rfl⟩ := frontMatter_lines hRun
  have hDefault : (permalink settings slug body).runIn context =
      (.ok (defaultPermalink settings slug), context) := by
    rw [permalink, Pass.runIn_bind, Pass.runIn_ofExcept, hOwn]
    rfl
  obtain rfl : defaultPermalink settings slug = address :=
    Except.ok.inj (congrArg Prod.fst (hDefault.symm.trans hAddress))
  exact ⟨data, hData, rfl⟩

/-- The lines of texts of one line that each end their line. -/
theorem lines_intercalate {texts : List String}
    (h : ∀ text ∈ texts, Text.isOneLine text = true) :
    Text.lines ("\n".intercalate (texts ++ [""])) = texts := by
  induction texts with
  | nil => rfl
  | cons text rest ih =>
      obtain ⟨hText, hRest⟩ := List.forall_mem_cons.1 h
      have hNext : "\n".intercalate (text :: (rest ++ [""])) =
          text ++ "\n" ++ "\n".intercalate (rest ++ [""]) := by
        cases rest with
        | nil => exact String.intercalate_cons_cons
        | cons next others => exact String.intercalate_cons_cons
      rw [List.cons_append, hNext, Text.lines_cons hText, ih hRest]

/-- A text with a colon in it is not blank. -/
theorem isBlankText_of_colon {text : String} (h : ':' ∈ text.toList) :
    Text.isBlankText text = false := by
  cases hBlank : Text.isBlankText text with
  | false => rfl
  | true => exact absurd (List.all_eq_true.1 hBlank ':' h) (by decide)

/-- Lines with a colon in them are read from a header as they were put together, and a blank line
after them. -/
theorem headerLines_block {texts : List String} (hOne : ∀ text ∈ texts, Text.isOneLine text = true)
    (hColon : ∀ text ∈ texts, ':' ∈ text.toList) : headerLines (block texts) = texts ++ [""] := by
  have hKept : texts.filter (fun text => !Text.isBlankText text) = texts := by
    refine List.filter_eq_self.2 fun text hText => ?_
    rw [isBlankText_of_colon (hColon text hText)]
    rfl
  have hLines : Text.lines (block texts) = "---" :: (texts ++ ["", "---"]) := by
    have hMark : Text.isBlankText "---" = false := by decide
    rw [block, List.filter_cons_of_pos (by rw [hMark]; rfl), hKept,
      show ("---" :: texts) ++ ["", "---", ""] = ("---" :: (texts ++ ["", "---"])) ++ [""] by simp]
    refine lines_intercalate ?_
    simp only [List.forall_mem_cons, List.forall_mem_append]
    exact ⟨by decide, hOne, by decide, by decide, List.forall_mem_nil _⟩
  have hMark : ∀ text ∈ texts ++ [""], decide (text ≠ "---") = true := by
    simp only [List.forall_mem_append, List.forall_mem_singleton]
    refine ⟨fun text hText => ?_, by decide⟩
    rw [decide_eq_true_eq]
    rintro rfl
    exact absurd (hColon _ hText) (by decide)
  rw [headerLines, hLines]
  simp only [if_true]
  rw [show texts ++ ["", "---"] = (texts ++ [""]) ++ ["---"] by simp,
    List.takeWhile_append_of_pos hMark]
  simp

/-! ## Texts that front matter shows -/

theorem isOneLine_quotedLine {key : String} (hKey : Text.isOneLine key = true) (value : String) :
    Text.isOneLine (quotedLine key value) = Text.isOneLine value := by
  have hText : Text.isOneLine (Text.backslashQuotes value) = Text.isOneLine value := by
    refine Text.isOneLine_replaceChars (fun c => ?_) value
    split
    · rename_i hQuote
      subst hQuote
      decide
    · simp
  have hMarks : Text.isOneLine ": \"" = true ∧ Text.isOneLine "\"" = true := by decide
  simp only [quotedLine, Text.isOneLine_append, hKey, hText, hMarks, Bool.true_and, Bool.and_true]

/-- The texts of a page that its front matter shows as they stand are one line each. -/
structure OneLineTexts (options : Options) (settings : PageSettings) (slug : String)
    (collection lang : Option String) : Prop where
  data : ∀ data, paginationData options settings = .ok (some data) → Text.isOneLine data = true
  size : ∀ size, nonBlank? settings.pageSize = some size → Text.isOneLine size = true
  slug : Text.isOneLine slug = true
  lang : ∀ text, lang = some text → Text.isOneLine text = true
  collection : ∀ text, collection = some text → Text.isOneLine text = true
  navigation : ∀ entry ∈ navigationEntries settings, Text.isOneLine entry = true

/-- A line of a header: one line with a colon in it. -/
def IsEntry (line : String) : Prop := Text.isOneLine line = true ∧ ':' ∈ line.toList

instance (line : String) : Decidable (IsEntry line) := by
  unfold IsEntry
  infer_instance

theorem IsEntry.append {start value : String} (h : IsEntry start)
    (hValue : Text.isOneLine value = true) : IsEntry (start ++ value) := by
  refine ⟨by rw [Text.isOneLine_append, h.1, hValue]; rfl, ?_⟩
  rw [String.toList_append]
  exact List.mem_append_left _ h.2

theorem isEntry_quotedLine {key value : String} (hKey : Text.isOneLine key = true)
    (hValue : Text.isOneLine value = true) : IsEntry (quotedLine key value) :=
  ⟨(isOneLine_quotedLine hKey value).trans hValue, by simp [quotedLine, String.toList_append]⟩

theorem isEntry_quotedLine? {key : String} (hKey : Text.isOneLine key = true)
    {value : Option String} (hValue : ∀ text, value = some text → Text.isOneLine text = true) :
    ∀ line ∈ quotedLine? key value, IsEntry line := by
  intro line hLine
  cases value with
  | none => cases hLine
  | some text =>
      rw [quotedLine?] at hLine
      split at hLine
      · cases hLine
      · obtain rfl := List.mem_singleton.1 hLine
        exact isEntry_quotedLine hKey (hValue text rfl)

variable {slug : String} {collection lang data : Option String}

theorem isEntry_dataLines (h : OneLineTexts options settings slug collection lang)
    (hData : paginationData options settings = .ok data) :
    ∀ line ∈ dataLines settings data, IsEntry line := by
  cases data with
  | none => exact List.forall_mem_nil _
  | some text =>
      have hSize : Text.isOneLine ((nonBlank? settings.pageSize).getD "1") = true := by
        cases hText : nonBlank? settings.pageSize with
        | none => rfl
        | some size => exact h.size size hText
      simp only [dataLines, paginationLines, List.forall_mem_append, List.forall_mem_cons]
      refine ⟨⟨by decide, IsEntry.append (by decide) (h.data text hData),
        IsEntry.append (by decide) hSize, List.forall_mem_nil _⟩, ?_⟩
      split <;> decide

theorem isEntry_addressLines (hSlug : Text.isOneLine slug = true) :
    ∀ line ∈ addressLines (defaultPermalink settings slug), IsEntry line := by
  unfold defaultPermalink
  split
  · exact List.forall_mem_nil _
  · split
    · decide
    · rw [addressLines, List.forall_mem_singleton]
      refine isEntry_quotedLine (by decide) ?_
      simp only [Text.isOneLine_append, hSlug]
      decide

theorem isEntry_navigationLines
    (h : ∀ entry ∈ navigationEntries settings, Text.isOneLine entry = true) :
    ∀ line ∈ navigationLines settings, IsEntry line := by
  have hEntries : ∀ entry ∈ navigationEntries settings, IsEntry entry := by
    intro entry hEntry
    refine ⟨h entry hEntry, ?_⟩
    obtain ⟨field, -, hField⟩ := List.mem_filterMap.1 hEntry
    obtain ⟨value, -, rfl⟩ := Option.map_eq_some_iff.1 hField
    simp [String.toList_append]
  unfold navigationLines
  split
  · exact List.forall_mem_nil _
  · exact List.forall_mem_cons.2 ⟨by decide, hEntries⟩

/-- The header of a page whose texts are one line each has the lines of the page. -/
theorem headerLines_pageLines (h : OneLineTexts options settings slug collection lang)
    (hData : paginationData options settings = .ok data) :
    headerLines (block (pageLines settings slug collection lang data)) =
      pageLines settings slug collection lang data ++ [""] := by
  have hEntries : ∀ line ∈ pageLines settings slug collection lang data, IsEntry line := by
    simp only [pageLines, otherLines, List.forall_mem_append]
    exact ⟨⟨isEntry_dataLines h hData, isEntry_addressLines h.slug⟩,
      ⟨isEntry_quotedLine? (by decide) h.lang, isEntry_quotedLine? (by decide) h.collection⟩,
      isEntry_navigationLines h.navigation⟩
  exact headerLines_block (fun line hLine => (hEntries line hLine).1)
    fun line hLine => (hEntries line hLine).2

/-! ## Which lines there are -/

/-- The characters that tell the lines about pagination and the address from all others. -/
def lineStart (line : String) : List Char := line.toList.take 2

theorem lineStart_dataLines (data : Option String) :
    ∀ line ∈ dataLines settings data, lineStart line ≠ ['p', 'e'] := by
  cases data with
  | none => exact List.forall_mem_nil _
  | some text =>
      simp only [dataLines, paginationLines, List.forall_mem_append, List.forall_mem_cons]
      refine ⟨⟨by decide, ?_, ?_, List.forall_mem_nil _⟩, ?_⟩
      · simp [lineStart, String.toList_append]
      · simp [lineStart, String.toList_append]
      · split <;> decide

theorem lineStart_quotedLine {key : String} (hKey : 2 ≤ key.toList.length) (value : String) :
    lineStart (quotedLine key value) = key.toList.take 2 := by
  rw [lineStart, quotedLine, String.append_assoc, String.append_assoc, String.toList_append,
    List.take_append_of_le_length hKey]

theorem lineStart_otherLines (settings : PageSettings) (collection lang : Option String) :
    ∀ line ∈ otherLines settings collection lang,
      lineStart line ≠ ['p', 'e'] ∧ lineStart line ≠ ['p', 'a'] := by
  have hQuoted : ∀ (key : String) (value : Option String), 2 ≤ key.toList.length →
      ∀ line ∈ quotedLine? key value, lineStart line = key.toList.take 2 := by
    intro key value hKey line hLine
    cases value with
    | none => cases hLine
    | some text =>
        rw [quotedLine?] at hLine
        split at hLine
        · cases hLine
        · obtain rfl := List.mem_singleton.1 hLine
          exact lineStart_quotedLine hKey text
  have hNavigation : ∀ line ∈ navigationLines settings,
      lineStart line = ['e', 'l'] ∨ lineStart line = [' ', ' '] := by
    unfold navigationLines
    split
    · exact List.forall_mem_nil _
    · refine List.forall_mem_cons.2 ⟨.inl (by decide), fun entry hEntry => .inr ?_⟩
      obtain ⟨field, -, hField⟩ := List.mem_filterMap.1 hEntry
      obtain ⟨value, -, rfl⟩ := Option.map_eq_some_iff.1 hField
      simp [lineStart, String.toList_append]
  simp only [otherLines, List.forall_mem_append]
  refine ⟨⟨fun line hLine => ?_, fun line hLine => ?_⟩, fun line hLine => ?_⟩
  · rw [hQuoted "lang" lang (by decide) line hLine]
    decide
  · rw [hQuoted "collection" collection (by decide) line hLine]
    decide
  · rcases hNavigation line hLine with hStart | hStart <;>
      · rw [hStart]
        decide

/-- Only pagination has the line that opens it. -/
theorem pagination_mem_pageLines :
    "pagination:" ∈ pageLines settings slug collection lang data ++ [""] ↔ data ≠ none := by
  have hStart : lineStart "pagination:" = ['p', 'a'] := by decide
  constructor
  · rintro hMem rfl
    rw [List.mem_append, pageLines, List.mem_append, List.mem_append] at hMem
    rcases hMem with ((hData | hAddress) | hOther) | hBlank
    · cases hData
    · cases hDefault : defaultPermalink settings slug with
      | none =>
          rw [hDefault] at hAddress
          cases hAddress
      | some address =>
          rw [hDefault, addressLines, List.mem_singleton] at hAddress
          rw [hAddress, lineStart_quotedLine (by decide)] at hStart
          exact absurd hStart (by decide)
    · exact (lineStart_otherLines settings collection lang _ hOther).2 hStart
    · exact absurd hBlank (by decide)
  · intro hSome
    obtain ⟨text, rfl⟩ := Option.ne_none_iff_exists'.1 hSome
    simp [pageLines, dataLines, paginationLines]

/-- Only an address has a permalink line. -/
theorem permalinkLine_pageLines :
    ((pageLines settings slug collection lang data ++ [""]).find? fun line =>
      "permalink: ".toList.isPrefixOf line.toList).isSome = true ↔
      (defaultPermalink settings slug).isSome = true := by
  rw [List.find?_isSome]
  constructor
  · rintro ⟨line, hLine, hKey⟩
    have hStart : lineStart line = ['p', 'e'] := by
      obtain ⟨rest, hRest⟩ := List.isPrefixOf_iff_prefix.1 hKey
      rw [lineStart, ← hRest]
      rfl
    rw [List.mem_append, pageLines, List.mem_append, List.mem_append] at hLine
    rcases hLine with ((hData | hAddress) | hOther) | hBlank
    · exact absurd hStart (lineStart_dataLines data line hData)
    · cases hDefault : defaultPermalink settings slug with
      | none =>
          rw [hDefault] at hAddress
          cases hAddress
      | some address => rfl
    · exact absurd hStart (lineStart_otherLines settings collection lang line hOther).1
    · rw [List.mem_singleton.1 hBlank] at hKey
      exact absurd hKey (by decide)
  · intro hSome
    obtain ⟨address, hAddress⟩ := Option.isSome_iff_exists.1 hSome
    refine ⟨quotedLine "permalink" address, ?_, ?_⟩
    · simp [pageLines, hAddress, addressLines]
    · simp [quotedLine, String.toList_append]

theorem defaultPermalink_isSome (settings : PageSettings) (slug : String) :
    (defaultPermalink settings slug).isSome = true ↔ settings.isCollectionPage = false := by
  unfold defaultPermalink
  split
  · rename_i hCollection
    simp [hCollection]
  · rename_i hSingle
    refine iff_of_true ?_ (by simpa using hSingle)
    split <;> rfl

end FrontMatter

open FrontMatter

/-- Front matter of a page that sets no permalink, validated or not. Pagination opens it when the
data of the page says something, and the permalink line of the default address does when the page is
no collection page. When all texts that it shows are one line it has exactly the lines that this
asks for, so it never has both, and it has neither exactly when the data of the page is an
expression without tokens: that is a collection page without pagination. -/
theorem frontMatter_address_iff (options : Options) {settings : PageSettings}
    (hPermalink : SaysNothing settings.permalink) {slug : String} {body : Element}
    {collection lang : Option String} {context next : Context} {header : String}
    (hRun : (frontMatter options settings slug body collection lang).runIn context =
      (.ok header, next)) :
    (¬ SaysNothing settings.pageData → OpensWith "pagination:" header) ∧
      (settings.isCollectionPage = false → ∃ address,
        defaultPermalink settings slug = some address ∧
          OpensWith (quotedLine "permalink" address) header) ∧
      (OneLineTexts options settings slug collection lang →
        ("pagination:" ∈ headerLines header ↔ ¬ SaysNothing settings.pageData) ∧
        ((permalinkLine? header).isSome = true ↔ settings.isCollectionPage = false) ∧
        ¬ ("pagination:" ∈ headerLines header ∧ (permalinkLine? header).isSome = true) ∧
        ("pagination:" ∈ headerLines header ∨ (permalinkLine? header).isSome = true ↔
          ¬ HoldsNoTokens settings.pageData)) := by
  obtain ⟨data, hData, rfl⟩ := frontMatter_eq_ok (ownPermalink_of_saysNothing hPermalink) hRun
  have hNone : data = none ↔ SaysNothing settings.pageData := by
    rw [← paginationData_eq_none_iff options settings, hData]
    simp
  have hCollection : settings.isCollectionPage = false ↔ nonBlank? settings.pageData = none := by
    simp [PageSettings.isCollectionPage]
  refine ⟨fun hSays => ?_, fun hSingle => ?_, fun hOne => ?_⟩
  · obtain ⟨text, rfl⟩ := Option.ne_none_iff_exists'.1 fun h => hSays (hNone.1 h)
    exact block_cons (by decide) _
  · obtain ⟨address, hAddress⟩ := Option.isSome_iff_exists.1
      ((defaultPermalink_isSome settings slug).2 hSingle)
    obtain rfl : data = none := hNone.2 (.inl (hCollection.1 hSingle))
    refine ⟨address, hAddress, ?_⟩
    rw [pageLines, hAddress]
    refine block_cons ?_ _
    have hKey : Text.isBlankText "permalink" = false := by decide
    rw [quotedLine, String.append_assoc, String.append_assoc, isBlankText_append, hKey]
    rfl
  · have hPagination :
        "pagination:" ∈ headerLines (block (pageLines settings slug collection lang data)) ↔
          ¬ SaysNothing settings.pageData := by
      rw [headerLines_pageLines hOne hData, pagination_mem_pageLines, Ne, hNone]
    have hAddress : (permalinkLine? (block (pageLines settings slug collection lang data))).isSome =
        true ↔ settings.isCollectionPage = false := by
      rw [permalinkLine?, headerLines_pageLines hOne hData, permalinkLine_pageLines,
        defaultPermalink_isSome]
    rw [hPagination, hAddress, hCollection]
    refine ⟨Iff.rfl, Iff.rfl, fun hBoth => hBoth.1 (.inl hBoth.2), ?_⟩
    constructor
    · rintro (hSays | hBlank) hHolds
      · exact hSays (.inr hHolds)
      · exact hHolds.nonBlank? hBlank
    · intro hHolds
      by_cases hBlank : nonBlank? settings.pageData = none
      · exact .inr hBlank
      · exact .inl fun hNothing => hNothing.elim hBlank hHolds

/-- The settings of a page of posts, two of them on each page, in a menu. -/
def postsSettings : PageSettings :=
  { pageData := some " cms.posts ", pageSize := some "2", permalink := some "[ ]",
    navigationKey := some "Posts" }

/-- They give the page its pagination and no permalink line. -/
theorem postsSettings_address :
    SaysNothing postsSettings.validate.1.permalink ∧
      OneLineTexts {} postsSettings.validate.1 "posts" (some "Posts") (some "en") ∧
      ∃ header next,
        (frontMatter {} postsSettings.validate.1 "posts" {} (some "Posts") (some "en")).runIn
          (Context.start {} 0 []) = (.ok header, next) ∧
        "pagination:" ∈ headerLines header ∧ ¬ (permalinkLine? header).isSome = true := by
  have hValid : postsSettings.validate.1 = postsSettings := by decide +kernel
  have hPermalink : SaysNothing postsSettings.permalink := .inr ⟨_, rfl, by with_unfolding_all rfl⟩
  have hData : paginationData {} postsSettings = .ok (some "cms.posts") := rfl
  have hSays : ¬ SaysNothing postsSettings.pageData := by
    rw [← paginationData_eq_none_iff {} postsSettings, hData]
    rintro ⟨⟩
  have hOne : OneLineTexts {} postsSettings "posts" (some "Posts") (some "en") := by
    refine ⟨?_, by decide, by decide, by decide, by decide, by decide⟩
    intro data hSome
    rw [← Option.some.inj (Except.ok.inj (hData.symm.trans hSome))]
    decide
  obtain ⟨header, next, hRun⟩ := frontMatter_runs hData
    (fun raw hRaw => ⟨none, (saysNothing_iff _).1 hPermalink raw hRaw⟩) "posts" {} (some "Posts")
    (some "en") (Context.start {} 0 [])
  obtain ⟨-, -, hLines⟩ := frontMatter_address_iff {} hPermalink hRun
  obtain ⟨hPagination, hAddress, -⟩ := hLines hOne
  rw [hValid]
  refine ⟨hPermalink, hOne, header, next, hRun, hPagination.2 hSays, ?_⟩
  rw [hAddress]
  decide

/-- A page whose data is the empty list has neither, and a line break in the data of a page that
follows with a permalink line gives it both. -/
theorem frontMatter_address_not_unique :
    (¬ ∀ (options : Options) (s : PageSettings) (slug : String) (body : Element)
        (context next : Context) (header : String), SaysNothing s.validate.1.permalink →
        (frontMatter options s.validate.1 slug body none none).runIn context = (.ok header, next) →
        "pagination:" ∈ headerLines header ∨ (permalinkLine? header).isSome = true) ∧
      ¬ ∀ (options : Options) (s : PageSettings) (slug : String) (body : Element)
        (context next : Context) (header : String), SaysNothing s.validate.1.permalink →
        (frontMatter options s.validate.1 slug body none none).runIn context = (.ok header, next) →
        ¬ ("pagination:" ∈ headerLines header ∧ (permalinkLine? header).isSome = true) := by
  constructor
  · intro h
    have hValid : ({ pageData := some "[]" } : PageSettings).validate.1 =
        { pageData := some "[]" } := by decide +kernel
    have hData : paginationData {} { pageData := some "[]" } = .ok none :=
      (paginationData_eq_none_iff _ _).2 (.inr ⟨_, rfl, by with_unfolding_all rfl⟩)
    obtain ⟨header, next, hRun⟩ := frontMatter_runs hData (by rintro _ ⟨⟩) "page-1" {} none none
      (Context.start {} 0 [])
    obtain ⟨data, hOther, rfl⟩ := frontMatter_eq_ok rfl hRun
    obtain rfl : none = data := Except.ok.inj (hData.symm.trans hOther)
    have hSite := h {} { pageData := some "[]" } "page-1" {} (Context.start {} 0 []) next
    rw [hValid] at hSite
    exact absurd (hSite _ (.inl rfl) hRun) (by decide)
  · intro h
    have hValid : ({ pageData := some "posts\npermalink: \"/x\"" } : PageSettings).validate.1 =
        { pageData := some "posts\npermalink: \"/x\"" } := by decide +kernel
    have hSite := h {} { pageData := some "posts\npermalink: \"/x\"" } "page-1" {}
      (Context.start {} 0 []) (Context.start {} 0 [])
      "---\npagination:\n  data: posts\npermalink: \"/x\"\n  size: 1\n\n---\n"
    rw [hValid] at hSite
    exact absurd (hSite (.inl rfl) rfl) (by decide)

end PagePress
