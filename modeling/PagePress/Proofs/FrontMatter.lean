import Mathlib.Data.List.DropRight
import PagePress.FrontMatter
import PagePress.Proofs.Costs
import PagePress.Proofs.Validation

/-!
# Front matter of validated settings

A setting is read twice, when it is validated and when it is compiled, and each use of it has its
own rules: a permalink is printed by the template, so any expression will do, while pagination is a
path in the generator's data. Both start from the grammar that validation has checked. So nothing
is left to fail but pagination by something that is no path, and that fails before anything else is
compiled.

## Main results

* `holds_of_parseSetting` — what a setting holds, told by its trimmed text.
* `permalink_runs` — a permalink that can be read compiles.
* `paginationData_of_parse` — what becomes of pagination that can be read.
* `validated_compiles` — validated settings compile, but for pagination that is no path.
-/

namespace PagePress

/-! ## Trimming -/

namespace Text

theorem trimEnd_eq (cs : List Char) : trimEnd cs = cs.rdropWhile isBlank := rfl

/-- Dropping the blanks at the end brings no blank to the start. -/
theorem dropWhile_trimEnd {cs : List Char} (h : cs.dropWhile isBlank = cs) :
    (trimEnd cs).dropWhile isBlank = trimEnd cs := by
  have hPrefix : trimEnd cs <+: cs := List.rdropWhile_prefix isBlank cs
  rw [List.dropWhile_eq_self_iff] at h ⊢
  intro hSome
  rw [hPrefix.getElem hSome]
  exact h (hSome.trans_le hPrefix.length_le)

/-- A trimmed text has no blank at its start. -/
theorem dropWhile_trimList (cs : List Char) :
    (trimList cs).dropWhile isBlank = trimList cs :=
  dropWhile_trimEnd (List.dropWhile_idempotent isBlank cs)

theorem trim_trim (text : String) : trim (trim text) = trim text := by
  have hTwice : trimList (trimList text.toList) = trimList text.toList := by
    rw [trimList, dropWhile_trimList, trimList, trimEnd_eq, trimEnd_eq, List.rdropWhile_idempotent]
  rw [trim, trim, String.toList_ofList, hTwice]

end Text

/-! ## Stored expressions -/

/-- A setting holds a stored expression. -/
def HoldsExpression (s : PageSettings) (setting : ExpressionSetting) (expression : Expression) :
    Prop :=
  ∃ raw, setting.get s = some raw ∧
    parseSetting setting.name raw = .ok (some (.expression expression))

/-- What a text without blanks at its ends can hold: no tokens at all, the text itself, or an
expression that it reads as. -/
inductive Holds (text : String) : Option StoredSetting → Prop
  | nothing (h : text = "" ∨ Expression.read text = .ok []) : Holds text none
  | text (hSome : text ≠ "") (hPlain : looksStored text = false) : Holds text (some (.text text))
  | expression {expression : Expression} (hRead : Expression.read text = .ok expression)
      (hCheck : expression.check = .ok ()) : Holds text (some (.expression expression))

theorem holds_of_parseStored {text : String} {held : Option StoredSetting}
    (h : parseStored text = .ok held) : Holds text held := by
  unfold parseStored at h
  split at h
  · cases h
  · rename_i hRead
    cases h
    exact .nothing (.inr hRead)
  · rename_i expression _ hRead
    split at h
    · rename_i hCheck
      cases h
      exact .expression hRead hCheck
    · cases h

/-- A setting that can be read holds what its trimmed text holds. -/
theorem holds_of_parseSetting {name raw : String} {held : Option StoredSetting}
    (h : parseSetting name raw = .ok held) : Holds (Text.trim raw) held := by
  have hParse : parseTrimmed (Text.trim raw) = .ok held := by
    unfold parseSetting at h
    split at h
    · rename_i hParse
      rw [hParse, Except.ok.inj h]
    · cases h
  unfold parseTrimmed at hParse
  split at hParse
  case isTrue hEmpty =>
    cases hParse
    exact .nothing (.inl (String.isEmpty_iff.1 hEmpty))
  case isFalse hSome =>
    split at hParse
    case isTrue => exact holds_of_parseStored hParse
    case isFalse hPlain =>
      cases hParse
      exact .text (fun hEmpty => hSome (String.isEmpty_iff.2 hEmpty)) (eq_false_of_ne_true hPlain)

/-- A stored expression that can be read has passed the check of the grammar. -/
theorem check_of_parseSetting {name raw : String} {expression : Expression}
    (h : parseSetting name raw = .ok (some (.expression expression))) :
    expression.check = .ok () := by
  cases holds_of_parseSetting h with
  | expression hRead hCheck => exact hCheck

namespace FrontMatter

/-! ## Permalinks -/

/-- An expression of the grammar gives an address. -/
theorem expressionPermalink_runs (body : Element) {expression : Expression}
    (h : expression.check = .ok ()) (context : Context) :
    ∃ address next, (expressionPermalink body expression).runIn context = (.ok address, next) := by
  have hPrinted : ∃ address next, ((Block.echoInline body expression).mapError
      PublishError.expression).runIn context = (.ok address, next) := by
    have hRun := (Block.costs_echoInline body expression).mapError PublishError.expression context
    rw [grammarFaults, h] at hRun
    obtain ⟨address, hAddress⟩ := hRun
    exact ⟨address, _, hAddress⟩
  unfold expressionPermalink
  split
  · split
    · exact ⟨_, context, rfl⟩
    · exact hPrinted
  · exact hPrinted

/-- A permalink that can be read compiles. -/
theorem permalink_runs {settings : PageSettings}
    (h : ∀ raw, settings.permalink = some raw →
      ∃ held, parseSetting ExpressionSetting.permalink.name raw = .ok held)
    (slug : String) (body : Element) (context : Context) :
    ∃ address next, (permalink settings slug body).runIn context = (.ok address, next) := by
  rw [permalink, Pass.runIn_bind, Pass.runIn_ofExcept]
  cases hRaw : settings.permalink with
  | none =>
      rw [ownPermalink, hRaw]
      exact ⟨_, context, rfl⟩
  | some raw =>
      obtain ⟨held, hParse⟩ := h raw hRaw
      rw [ownPermalink, hRaw]
      simp only [hParse]
      cases held with
      | none => exact ⟨_, context, rfl⟩
      | some setting =>
          cases setting with
          | text text => exact ⟨_, context, rfl⟩
          | expression expression =>
              obtain ⟨address, next, hRun⟩ :=
                expressionPermalink_runs body (check_of_parseSetting hParse) context
              exact ⟨some address, next, Pass.runIn_bind_of_ok hRun⟩

/-! ## Pagination -/

/-- A token that may not stand in a pagination path: a filter, a state or a fixed value. -/
inductive IsOffPath : Token → Prop
  | filter (f : Filter) : IsOffPath (.filter f)
  | state (s : StateRef) : IsOffPath (.state s)
  | fixed {p : Property} (h : p.isFixed = true) : IsOffPath (.property p)

theorem isPathToken_eq_false_iff {token : Token} : isPathToken token = false ↔ IsOffPath token := by
  constructor
  · intro h
    cases token with
    | filter f => exact .filter f
    | state s => exact .state s
    | property p => exact .fixed (by simpa [isPathToken] using h)
  · rintro (f | s | hFixed)
    · rfl
    · rfl
    · simp [isPathToken, hFixed]

/-- A path of the grammar has its steps. -/
theorem path_runs {expression : Expression} (hCheck : expression.check = .ok ())
    (hPath : expression.all isPathToken = true) : ∃ path, expression.path = .ok path := by
  obtain ⟨head, path, filters, hHead, rfl⟩ := (Expression.check_eq_ok_iff _).1 hCheck
  cases filters with
  | cons f rest =>
      have hFilter := List.all_eq_true.1 hPath (.filter f) (by simp [Expression.chain])
      cases hFilter
  | nil =>
      refine ⟨".".intercalate (Expression.headStep head :: path.map Expression.propertyStep), ?_⟩
      rw [Expression.path, Expression.chain, List.map_nil, List.append_nil,
        Expression.pathSteps_properties hHead]
      rfl

/-- Pagination by a path succeeds, and by anything else it is refused. -/
theorem paginationPath_outcome (options : Options) {expression : Expression}
    (hCheck : expression.check = .ok ()) :
    if expression.all isPathToken then ∃ path, paginationPath options expression = .ok path
    else paginationPath options expression =
      .error (.invalidSetting ExpressionSetting.pageData.name .notAPath) := by
  unfold paginationPath
  cases hPath : expression.all isPathToken with
  | false => rfl
  | true =>
      obtain ⟨path, hSteps⟩ := path_runs hCheck hPath
      simp only [hSteps]
      exact ⟨_, rfl⟩

/-- What becomes of pagination that can be read. -/
theorem paginationData_of_parse (options : Options) {settings : PageSettings} {raw : String}
    {held : Option StoredSetting} (hRaw : settings.pageData = some raw)
    (hParse : parseSetting ExpressionSetting.pageData.name raw = .ok held) :
    paginationData options settings =
      match held with
      | none => .ok none
      | some (.text path) => .ok (some path)
      | some (.expression expression) => (paginationPath options expression).map some := by
  unfold paginationData
  rw [hRaw]
  cases hEmpty : (Text.trim raw).isEmpty with
  | true =>
      have hBlank : nonBlank? (some raw) = none := by
        simpa [nonBlank?] using String.isEmpty_iff.1 hEmpty
      have hNone : parseSetting ExpressionSetting.pageData.name raw = .ok none := by
        simp [parseSetting, parseTrimmed, hEmpty]
      obtain rfl : held = none := by
        rw [hParse] at hNone
        cases hNone
        rfl
      rw [hBlank]
      rfl
  | false =>
      have hSome : nonBlank? (some raw) = some (Text.trim raw) := by simp [nonBlank?, hEmpty]
      have hAgain : parseSetting ExpressionSetting.pageData.name (Text.trim raw) = .ok held :=
        (parseSetting_trim (Text.trim_trim raw)).trans hParse
      rw [hSome]
      simp only [hAgain]
      cases held with
      | none => rfl
      | some setting =>
          cases setting with
          | text path => rfl
          | expression expression => cases paginationPath options expression <;> rfl

/-- Pagination that can be read fails exactly when it is a stored expression that is no path. -/
theorem paginationData_outcome (options : Options) {settings : PageSettings}
    (h : ∀ raw, settings.pageData = some raw →
      ∃ held, parseSetting ExpressionSetting.pageData.name raw = .ok held) :
    (∃ data, paginationData options settings = .ok data) ∧
        (∀ expression, HoldsExpression settings .pageData expression →
          ∀ token ∈ expression, ¬ IsOffPath token) ∨
      paginationData options settings =
          .error (.invalidSetting ExpressionSetting.pageData.name .notAPath) ∧
        ∃ expression, HoldsExpression settings .pageData expression ∧
          ∃ token ∈ expression, IsOffPath token := by
  cases hRaw : settings.pageData with
  | none =>
      refine .inl ⟨⟨none, ?_⟩, ?_⟩
      · rw [paginationData, hRaw]
        rfl
      · rintro expression ⟨raw, hGet, -⟩
        cases hRaw.symm.trans hGet
  | some raw =>
      obtain ⟨held, hParse⟩ := h raw hRaw
      have hHeld : ∀ expression, HoldsExpression settings .pageData expression ↔
          held = some (.expression expression) := by
        intro expression
        constructor
        · rintro ⟨other, hGet, hOther⟩
          cases hRaw.symm.trans hGet
          cases hParse.symm.trans hOther
          rfl
        · rintro rfl
          exact ⟨raw, hRaw, hParse⟩
      have hData := paginationData_of_parse options hRaw hParse
      simp only [hHeld]
      cases held with
      | none => exact .inl ⟨⟨_, hData⟩, fun _ hEq => nomatch hEq⟩
      | some setting =>
          cases setting with
          | text path => exact .inl ⟨⟨_, hData⟩, fun _ hEq => nomatch hEq⟩
          | expression expression =>
              have hOutcome := paginationPath_outcome options (check_of_parseSetting hParse)
              cases hPath : expression.all isPathToken with
              | true =>
                  obtain ⟨path, hOk⟩ : ∃ path, paginationPath options expression = .ok path := by
                    simpa [hPath] using hOutcome
                  refine .inl ⟨⟨some path, by simp only [hData, hOk]; rfl⟩, ?_⟩
                  rintro _ ⟨⟩ token hToken hOff
                  rw [← isPathToken_eq_false_iff, List.all_eq_true.1 hPath token hToken] at hOff
                  cases hOff
              | false =>
                  have hRefused : paginationPath options expression =
                      .error (.invalidSetting ExpressionSetting.pageData.name .notAPath) := by
                    simpa [hPath] using hOutcome
                  obtain ⟨token, hToken, hOff⟩ := List.all_eq_false.1 hPath
                  exact .inr ⟨by simp only [hData, hRefused]; rfl, expression, rfl, token, hToken,
                    isPathToken_eq_false_iff.1 (by simpa using hOff)⟩

end FrontMatter

open FrontMatter

/-- Front matter without pagination, or with pagination that compiles, is written. -/
theorem frontMatter_runs {options : Options} {settings : PageSettings} {data : Option String}
    (hData : paginationData options settings = .ok data)
    (hPermalink : ∀ raw, settings.permalink = some raw →
      ∃ held, parseSetting ExpressionSetting.permalink.name raw = .ok held)
    (slug : String) (body : Element) (collection lang : Option String) (context : Context) :
    ∃ header next, (frontMatter options settings slug body collection lang).runIn context =
      (.ok header, next) := by
  obtain ⟨address, next, hRun⟩ := permalink_runs hPermalink slug body context
  have hFirst : (Pass.ofExcept (paginationData options settings)).runIn context =
      (.ok data, context) := by
    rw [Pass.runIn_ofExcept, hData]
  unfold frontMatter
  rw [Pass.runIn_bind_of_ok hFirst, Pass.runIn_bind_of_ok hRun]
  exact ⟨_, next, rfl⟩

/-- Pagination that does not compile ends front matter before anything else is compiled. -/
theorem frontMatter_of_error {options : Options} {settings : PageSettings} {error : PublishError}
    (hData : paginationData options settings = .error error) (slug : String) (body : Element)
    (collection lang : Option String) (context : Context) :
    (frontMatter options settings slug body collection lang).runIn context =
      (.error error, context) := by
  have hFirst : (Pass.ofExcept (paginationData options settings)).runIn context =
      (.error error, context) := by
    rw [Pass.runIn_ofExcept, hData]
  exact Pass.runIn_bind_of_error hFirst

/-- Validated settings compile. Their permalink never fails, and their front matter fails exactly
when pagination is a stored expression with a filter, a state or a fixed value in it. That failure
names the setting, is local to the page, and leaves the pass as it was. -/
theorem validated_compiles (s : PageSettings) (options : Options) (slug : String) (body : Element)
    (collection lang : Option String) (context : Context) :
    (∃ address next, (permalink s.validate.1 slug body).runIn context = (.ok address, next)) ∧
      ((∃ error next, (frontMatter options s.validate.1 slug body collection lang).runIn context =
          (.error error, next)) ↔
        ∃ expression, HoldsExpression s.validate.1 .pageData expression ∧
          ∃ token ∈ expression, IsOffPath token) ∧
      ∀ error next, (frontMatter options s.validate.1 slug body collection lang).runIn context =
          (.error error, next) →
        error = .invalidSetting "eleventyPageData" .notAPath ∧ error.isPageLocal = true ∧
          next = context := by
  have hPermalink : ∀ raw, s.validate.1.permalink = some raw →
      ∃ held, parseSetting ExpressionSetting.permalink.name raw = .ok held :=
    fun raw h => parseSetting_validate .permalink h
  have hPageData : ∀ raw, s.validate.1.pageData = some raw →
      ∃ held, parseSetting ExpressionSetting.pageData.name raw = .ok held :=
    fun raw h => parseSetting_validate .pageData h
  refine ⟨permalink_runs hPermalink slug body context, ?_⟩
  rcases paginationData_outcome options hPageData with ⟨⟨data, hData⟩, hOnPath⟩ | ⟨hData, hOff⟩
  · obtain ⟨header, next, hRun⟩ :=
      frontMatter_runs hData hPermalink slug body collection lang context
    rw [hRun]
    refine ⟨⟨?_, ?_⟩, ?_⟩
    · rintro ⟨error, after, hError⟩
      cases hError
    · rintro ⟨expression, hHolds, token, hToken, hOffPath⟩
      exact absurd hOffPath (hOnPath expression hHolds token hToken)
    · intro error after hError
      cases hError
  · rw [frontMatter_of_error hData slug body collection lang context]
    refine ⟨⟨fun _ => hOff, fun _ => ⟨_, context, rfl⟩⟩, ?_⟩
    intro error after hError
    cases hError
    exact ⟨rfl, rfl, rfl⟩

end PagePress
