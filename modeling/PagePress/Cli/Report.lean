import PagePress.FilePath
import PagePress.Publication.Publisher

/-!
# Reports

What a command tells: text for the standard output and lines for the error output. Lines are kept as
what they mean and become text at the end, when the time that the command took is known.
-/

namespace PagePress.Cli

/-- Something that a command tells. -/
inductive Line where
  | notice (notice : Notice)
  | wrote (path : String)
  /-- How many files were published. -/
  | published (count : Nat)
  /-- An error that ended the command, and where it happened. -/
  | failure (error : PublishError) (context : String)
  | notASite (path : String)
  | noSites (path : String)
  | missing (path : String)
deriving DecidableEq, Repr

namespace Line

/-- A number of files in words. -/
def countText (count : Nat) : String :=
  toString count ++ if count = 1 then " file" else " files"

/-- A notification as a line. -/
def notificationText (n : Notification) : String :=
  n.kind.name ++ ": [" ++ n.group ++ "] " ++ n.message ++ "\n"

/-- The text of a line, for a command that took some time. -/
def text (time : String) : Line → String
  | notice n => notificationText n.notification
  | wrote path => "  ✓ " ++ path ++ "\n"
  | published count => "\nPublished " ++ countText count ++ " in " ++ time ++ "\n"
  | failure error context => error.render Palette.plain context
  | notASite path => "Error: " ++ path ++ " is not a " ++ FilePath.siteExtension ++ " file\n"
  | noSites path => "No " ++ FilePath.siteExtension ++ " files found in " ++ path ++ "\n"
  | missing path => "Error: " ++ path ++ " does not exist\n"

end Line

/-- All that a command tells. -/
structure Report where
  /-- The text for the standard output. -/
  output : String := ""
  /-- The lines for the error output. -/
  lines : List Line := []
deriving DecidableEq, Repr

/-- The text for the error output. -/
def Report.errorText (report : Report) (time : String) : String :=
  String.join (report.lines.map (Line.text time))

end PagePress.Cli
