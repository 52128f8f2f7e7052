import PagePress.Expression.Grammar
import PagePress.Expression.Stored
import PagePress.Notice
import PagePress.Page.Settings

/-!
# Reading and validating settings

A setting that starts with a bracket or a brace holds a stored expression; any other text is what
it says. Validation clears every setting whose stored expression cannot be used.

## Main results

* `parseSetting_trim` — blanks around a setting do not matter to what it is.
-/

namespace PagePress

/-- What a setting holds. -/
inductive StoredSetting where
  | expression (value : Expression)
  | text (value : String)

/-- Whether a text is meant to be a stored expression. -/
def looksStored (text : String) : Bool :=
  match text.toList with
  | '[' :: _ => true
  | '\x7b' :: _ => true
  | _ => false

/-- The stored expression of a setting, when it has any tokens. -/
def parseStored (text : String) : Except SettingFault (Option StoredSetting) :=
  match Expression.read text with
  | .error error => .error (.malformed error)
  | .ok [] => .ok none
  | .ok expression =>
    match Expression.check expression with
    | .ok () => .ok (some (.expression expression))
    | .error error => .error (.ungrammatical error.message)

/-- What a setting without blanks at its ends holds. -/
def parseTrimmed (text : String) : Except SettingFault (Option StoredSetting) :=
  if text.isEmpty then .ok none
  else if looksStored text then parseStored text
  else .ok (some (.text text))

/-- What a named setting holds, if anything. -/
def parseSetting (name raw : String) : Except PublishError (Option StoredSetting) :=
  match parseTrimmed (Text.trim raw) with
  | .ok setting => .ok setting
  | .error fault => .error (.invalidSetting name fault)

theorem parseSetting_trim {name a b : String} (h : Text.trim a = Text.trim b) :
    parseSetting name a = parseSetting name b := by
  simp [parseSetting, h]

/-! ## Validation -/

/-- Whether a setting can be used. -/
def isUsable (settings : PageSettings) (setting : ExpressionSetting) : Bool :=
  match setting.get settings with
  | none => true
  | some raw =>
    match parseSetting setting.name raw with
    | .ok _ => true
    | .error _ => false

/-- Clears the unusable ones among some settings and gives a notice of each. -/
def clearUnusable : List ExpressionSetting → PageSettings → PageSettings × List Notice
  | [], settings => (settings, [])
  | setting :: rest, settings =>
    if isUsable settings setting then clearUnusable rest settings
    else
      let (cleared, notices) := clearUnusable rest (setting.set settings none)
      (cleared, .settingCleared setting.name :: notices)

/-- Settings in which every stored expression can be used, and a notice of each cleared one. -/
def PageSettings.validate (settings : PageSettings) : PageSettings × List Notice :=
  clearUnusable ExpressionSetting.all settings

/-! ## Settings for search engines and social sites -/

/-- The hidden state that a setting adds to a page, when it holds an expression. -/
def sharingState? (settings : PageSettings) (setting : ExpressionSetting) : Option StoredState := do
  let raw ← setting.get settings
  match parseSetting setting.name raw with
  | .ok (some (.expression expression)) =>
    return ⟨setting.name, some setting.name, true, expression⟩
  | _ => none

/-- The hidden states through which the query of a page covers its settings for search engines and
social sites. -/
def PageSettings.sharingStates (settings : PageSettings) : List StoredState :=
  ExpressionSetting.forSharing.filterMap (sharingState? settings)

end PagePress
