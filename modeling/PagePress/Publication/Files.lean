import PagePress.Notice
import PagePress.Route

/-!
# Published files

The result of a pass: files with their paths and types, and what was noticed. A snapshot lists both
as plain text.
-/

namespace PagePress

open Json

/-- A file of a published site. -/
structure PublishedFile where
  path : String
  type : FileType
  content : String
deriving DecidableEq, Repr

/-- A published file as JSON. -/
def PublishedFile.toJson (file : PublishedFile) : Json :=
  ofFields
    [("path", some (.string file.path)),
     ("type", some (.string file.type.name)),
     ("content", some (.string file.content))]

/-- Files and notifications. -/
structure Release where
  files : List PublishedFile
  notifications : List Notification
deriving DecidableEq, Repr

namespace Release

/-- A release as JSON. -/
def toJson (release : Release) : Json :=
  ofFields
    [("files", some (ofList PublishedFile.toJson release.files)),
     ("notifications", some (ofList Notification.toJson release.notifications))]

/-- A notification in a snapshot. -/
def notificationText (n : Notification) : String :=
  "!!! " ++ n.kind.name ++ ": [" ++ n.group ++ "] " ++ n.message ++ "\n"

/-- A file in a snapshot. -/
def fileText (file : PublishedFile) : String :=
  "=== " ++ file.path ++ " (" ++ file.type.name ++ ")\n" ++ file.content ++ "\n"

/-- The plain text listing of a release, notifications first. -/
def snapshot (release : Release) : String :=
  String.join (release.notifications.map notificationText) ++
    String.join (release.files.map fileText)

end Release

end PagePress
