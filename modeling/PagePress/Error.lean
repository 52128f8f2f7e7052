import PagePress.Expression.Error
import PagePress.Json.Basic

/-!
# Errors of publishing

What can keep a page, a file or a whole site from being published. An error is local to a page when
the bindings or the settings of that page cause it; the other pages are published all the same.
-/

namespace PagePress

/-- What is wrong with a stored setting. -/
inductive SettingFault where
  /-- The stored text is no list of tokens. -/
  | malformed (error : Json.Error)
  /-- The stored tokens break the grammar of expressions. -/
  | ungrammatical (message : String)
  /-- The stored expression is more than a path. -/
  | notAPath
deriving DecidableEq, Repr

/-- What a fault is called in a message. -/
def SettingFault.reason : SettingFault → String
  | .malformed error => error.reason
  | .ungrammatical message => message
  | .notAPath => "pagination data must be a path to a list, without filters or states"

/-- An error of publishing. -/
inductive PublishError where
  | expression (error : ExpressionError)
  | missingTagName (componentId : String)
  | missingPageFile (path : String)
  | notHtml (path : String)
  | unknownDataSource (id : String)
  | invalidSetting (name : String) (fault : SettingFault)
  | invalidOptions (error : Json.Error)
  | io (path reason : String)
  | malformed (error : Json.Error)
deriving DecidableEq, Repr

namespace PublishError

/-- What an error says. -/
def message : PublishError → String
  | expression error => error.message
  | missingTagName id => "Component " ++ id ++ " has dynamic content but no tag name"
  | missingPageFile path => "Could not find page " ++ path
  | notHtml path => "File " ++ path ++ " is not an HTML file"
  | unknownDataSource id => "Data source " ++ id ++ " not found"
  | invalidSetting name fault => "Invalid JSON for " ++ name ++ ": " ++ fault.reason
  | invalidOptions error => "Invalid configuration: " ++ error.reason
  | io path reason => path ++ ": " ++ reason
  | malformed error => error.reason

/-- Whether an error is local to a page. -/
def isPageLocal : PublishError → Bool
  | expression _ => true
  | missingTagName _ => true
  | invalidSetting _ _ => true
  | _ => false

/-- The text of an error for a terminal. The context is shown for an expression only. -/
def render (error : PublishError) (palette : Palette) (context : String) : String :=
  match error with
  | expression e => e.render palette context
  | other =>
    palette.alarm ++ "error:" ++ palette.reset ++ " " ++ palette.bold ++ other.message ++
      palette.reset ++ "\n"

end PublishError

end PagePress
