import PagePress.Error
import PagePress.Json.Decode

/-!
# Notices

What a pass tells the user: that a setting could not be used, or that a page was left out. A notice
becomes a notification with a kind, a message and a group.
-/

namespace PagePress

open Json

/-- How serious a notification is. -/
inductive Notification.Kind where
  | error
  | warning
  | info
deriving DecidableEq, Repr

/-- The name of a kind of notification. -/
def Notification.Kind.name : Notification.Kind → String
  | .error => "error"
  | .warning => "warning"
  | .info => "info"

/-- The kind of notification of a name. -/
def Notification.Kind.named? : String → Option Notification.Kind
  | "error" => some .error
  | "warning" => some .warning
  | "info" => some .info
  | _ => none

/-- A message to the user. -/
structure Notification where
  kind : Notification.Kind
  message : String
  group : String
deriving DecidableEq, Repr

/-- A notification as JSON. -/
def Notification.toJson (n : Notification) : Json :=
  ofFields
    [("kind", some (.string n.kind.name)),
     ("message", some (.string n.message)),
     ("group", some (.string n.group))]

/-- Whether there is an error among notifications. -/
def Notification.anyError (notifications : List Notification) : Bool :=
  notifications.any fun n => n.kind = .error

/-- Something that a pass noticed about a page. -/
inductive Notice where
  /-- A setting does not hold what it should and was cleared. -/
  | settingCleared (name : String)
  /-- A page was left out. -/
  | pageDropped (page : String) (cause : PublishError)
deriving DecidableEq, Repr

/-- The group of notifications about settings. -/
def settingsGroup : String := "Errors in your settings"

/-- The notification of a notice. -/
def Notice.notification : Notice → Notification
  | .settingCleared name => ⟨.error, "Invalid JSON for " ++ name, settingsGroup⟩
  | .pageDropped page cause => ⟨.error, "Page " ++ page ++ ": " ++ cause.message, settingsGroup⟩

end PagePress
