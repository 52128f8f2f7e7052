import Mathlib.Data.List.Nodup
import PagePress.Page.Validation

/-!
# Validated settings

Validation walks the eight settings that may hold a stored expression. Each is judged by its own
text, so clearing one changes the judgement of no other, and what is left at the end is each text
that can be read. All other settings are out of reach of the walk.

## Main results

* `get_clearUnusable`, `withTexts_clearUnusable` — what the walk does to the eight settings and to
  the others.
* `clearUnusable_of_usable` — usable settings are left as they are.
* `validate_readable` — what validation leaves can be read, and it leaves all that can be.
-/

namespace PagePress

open ExpressionSetting

variable {s t : PageSettings}

/-! ## Texts of the eight settings -/

/-- The settings with other texts for all eight that may hold an expression. -/
def PageSettings.withTexts (s : PageSettings) (text : ExpressionSetting → Option String) :
    PageSettings :=
  { s with
    pageData := text .pageData
    permalink := text .permalink
    seoTitle := text .seoTitle
    seoDescription := text .seoDescription
    favicon := text .favicon
    ogImage := text .ogImage
    ogTitle := text .ogTitle
    ogDescription := text .ogDescription }

theorem PageSettings.withTexts_get (s : PageSettings) : s.withTexts (get s) = s := rfl

theorem PageSettings.withTexts_set (s : PageSettings) (value : Option String)
    (setting : ExpressionSetting) (text : ExpressionSetting → Option String) :
    (setting.set s value).withTexts text = s.withTexts text := by
  cases setting <;> rfl

namespace ExpressionSetting

theorem mem_all (setting : ExpressionSetting) : setting ∈ all := by
  cases setting <;> decide

theorem nodup_all : all.Nodup := by
  decide

end ExpressionSetting

/-! ## Readable settings -/

/-- The text of a setting, when it can be read. -/
def readableText? (s : PageSettings) (setting : ExpressionSetting) : Option String :=
  (setting.get s).filter fun raw => (parseSetting setting.name raw).isOk

/-- The settings with a text that cannot be read, in the order of validation. -/
def unreadable (s : PageSettings) : List ExpressionSetting :=
  all.filter fun setting => (setting.get s).any fun raw => !(parseSetting setting.name raw).isOk

/-- A usable setting is one without a text that cannot be read. -/
theorem isUsable_eq (s : PageSettings) (setting : ExpressionSetting) :
    isUsable s setting =
      !(setting.get s).any fun raw => !(parseSetting setting.name raw).isOk := by
  unfold isUsable
  cases setting.get s with
  | none => rfl
  | some raw =>
      cases hParse : parseSetting setting.name raw <;>
        simp [hParse, Except.isOk, Except.toBool]

/-- Of a usable setting the text can be read, and of any other one it cannot. -/
theorem readableText?_eq (s : PageSettings) (setting : ExpressionSetting) :
    readableText? s setting = if isUsable s setting then setting.get s else none := by
  rw [isUsable_eq]
  unfold readableText?
  cases setting.get s with
  | none => rfl
  | some raw => cases hOk : (parseSetting setting.name raw).isOk <;> simp [hOk]

/-- Whether a setting is usable depends on its own text only. -/
theorem isUsable_congr {setting : ExpressionSetting} (h : setting.get s = setting.get t) :
    isUsable s setting = isUsable t setting := by
  rw [isUsable_eq, isUsable_eq, h]

/-! ## The walk -/

theorem clearUnusable_cons_of_usable {setting : ExpressionSetting}
    (h : isUsable s setting = true) (rest : List ExpressionSetting) :
    clearUnusable (setting :: rest) s = clearUnusable rest s := by
  rw [clearUnusable, if_pos h]

theorem clearUnusable_cons_of_not_usable {setting : ExpressionSetting}
    (h : isUsable s setting = false) (rest : List ExpressionSetting) :
    clearUnusable (setting :: rest) s =
      ((clearUnusable rest (setting.set s none)).1,
        .settingCleared setting.name :: (clearUnusable rest (setting.set s none)).2) := by
  rw [clearUnusable, if_neg (by simp [h])]

/-- The walk leaves of each setting that it visits the text that can be read, and of every other
one its text. -/
theorem get_clearUnusable (settings : List ExpressionSetting) :
    ∀ (s : PageSettings) (setting : ExpressionSetting),
      setting.get (clearUnusable settings s).1 =
        if setting ∈ settings then readableText? s setting else setting.get s := by
  induction settings with
  | nil => exact fun s setting => by simp [clearUnusable]
  | cons first rest ih =>
      intro s setting
      cases hUsable : isUsable s first with
      | true =>
          rw [clearUnusable_cons_of_usable hUsable, ih]
          by_cases hFirst : setting = first
          · subst hFirst
            simp [readableText?_eq, hUsable]
          · simp [hFirst]
      | false =>
          rw [clearUnusable_cons_of_not_usable hUsable, ih]
          by_cases hFirst : setting = first
          · subst hFirst
            have hCleared : setting.get (setting.set s none) = none := by simp [get_set]
            simp [readableText?_eq, hUsable, hCleared]
          · have hKept : setting.get (first.set s none) = setting.get s := by
              simp [get_set, hFirst]
            simp [readableText?_eq, hFirst, hKept, isUsable_congr hKept]

/-- The walk reaches the eight settings only. -/
theorem withTexts_clearUnusable (settings : List ExpressionSetting)
    (text : ExpressionSetting → Option String) : ∀ s : PageSettings,
      (clearUnusable settings s).1.withTexts text = s.withTexts text := by
  induction settings with
  | nil => exact fun s => rfl
  | cons first rest ih =>
      intro s
      cases hUsable : isUsable s first with
      | true => rw [clearUnusable_cons_of_usable hUsable, ih]
      | false =>
          rw [clearUnusable_cons_of_not_usable hUsable, ih, PageSettings.withTexts_set]

/-- The walk gives one notice of each setting that it clears. -/
theorem notices_clearUnusable {settings : List ExpressionSetting} (hNodup : settings.Nodup) :
    ∀ s : PageSettings, (clearUnusable settings s).2 =
      (settings.filter fun setting => !isUsable s setting).map fun setting =>
        .settingCleared setting.name := by
  induction settings with
  | nil => exact fun s => rfl
  | cons first rest ih =>
      intro s
      obtain ⟨hFirst, hRest⟩ := List.nodup_cons.1 hNodup
      cases hUsable : isUsable s first with
      | true =>
          rw [clearUnusable_cons_of_usable hUsable, ih hRest]
          simp [hUsable]
      | false =>
          have hKept : ∀ setting ∈ rest,
              isUsable (first.set s none) setting = isUsable s setting := by
            intro setting hMem
            have hNe : setting ≠ first := fun hEq => hFirst (hEq ▸ hMem)
            exact isUsable_congr (by simp [get_set, hNe])
          have hFilter : (rest.filter fun setting => !isUsable (first.set s none) setting) =
              rest.filter fun setting => !isUsable s setting :=
            List.filter_congr fun setting hMem => by rw [hKept setting hMem]
          rw [clearUnusable_cons_of_not_usable hUsable, ih hRest, hFilter]
          simp [hUsable]

/-- The walk leaves usable settings as they are. -/
theorem clearUnusable_of_usable {settings : List ExpressionSetting}
    (h : ∀ setting ∈ settings, isUsable s setting = true) : clearUnusable settings s = (s, []) := by
  induction settings with
  | nil => rfl
  | cons first rest ih =>
      rw [clearUnusable_cons_of_usable (h first List.mem_cons_self)]
      exact ih fun setting hMem => h setting (List.mem_cons_of_mem _ hMem)

/-! ## Validation -/

theorem get_validate (s : PageSettings) (setting : ExpressionSetting) :
    setting.get s.validate.1 = readableText? s setting := by
  rw [PageSettings.validate, get_clearUnusable, if_pos (mem_all setting)]

/-- Validation leaves the languages of a page alone. -/
theorem languages_validate (s : PageSettings) : s.validate.1.languages = s.languages :=
  calc s.validate.1.languages
    _ = (s.validate.1.withTexts fun _ => none).languages := rfl
    _ = (s.withTexts fun _ => none).languages := by
      rw [PageSettings.validate, withTexts_clearUnusable]
    _ = s.languages := rfl

/-- What validation leaves can be read. -/
theorem parseSetting_validate (setting : ExpressionSetting) {raw : String}
    (h : setting.get s.validate.1 = some raw) :
    ∃ held, parseSetting setting.name raw = .ok held := by
  rw [get_validate] at h
  obtain ⟨-, hOk⟩ := Option.filter_eq_some_iff.1 h
  cases hParse : parseSetting setting.name raw with
  | error error =>
      rw [hParse] at hOk
      cases hOk
  | ok held => exact ⟨held, rfl⟩

/-- Validation makes settings safe. Each of the eight that may hold an expression can be read
afterwards. Those that could be read before are as they were, the others are cleared, and no other
setting is touched. There is one error about each cleared setting, in the order of validation. And
what was validated stays as it is when it is validated again. -/
theorem validate_readable (s : PageSettings) :
    (∀ (setting : ExpressionSetting) (raw : String), setting.get s.validate.1 = some raw →
        ∃ held, parseSetting setting.name raw = .ok held) ∧
      s.validate.1 = s.withTexts (readableText? s) ∧
      s.validate.2.map Notice.notification = (unreadable s).map (fun setting : ExpressionSetting =>
        ⟨.error, "Invalid JSON for " ++ setting.name, settingsGroup⟩) ∧
      s.validate.1.validate = (s.validate.1, []) := by
  refine ⟨fun setting _ h => parseSetting_validate setting h, ?_, ?_, ?_⟩
  · have hTexts : get s.validate.1 = readableText? s := funext (get_validate s)
    calc s.validate.1
      _ = s.validate.1.withTexts (get s.validate.1) := (PageSettings.withTexts_get _).symm
      _ = s.withTexts (get s.validate.1) := withTexts_clearUnusable all _ s
      _ = s.withTexts (readableText? s) := by rw [hTexts]
  · rw [PageSettings.validate, notices_clearUnusable nodup_all, List.map_map]
    simp only [isUsable_eq, Bool.not_not]
    rfl
  · apply clearUnusable_of_usable
    intro setting _
    rw [isUsable_eq, Bool.not_eq_true', Option.any_eq_false]
    intro raw hGet
    obtain ⟨held, hParse⟩ := parseSetting_validate _ hGet
    simp [hParse, Except.isOk, Except.toBool]

end PagePress
