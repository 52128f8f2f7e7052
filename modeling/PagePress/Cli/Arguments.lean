import PagePress.Text.Lines

/-!
# Command lines

A command line names one of three commands. Options are written `--name value` or `--name=value`;
a value that starts with a dash needs the second form, unless it is a single dash. After a lone
`--` everything is a plain argument. An option may be given once, and an option or argument that is
a path may not be empty. The options file may be named before the command or after it; the one after
it wins.

Reading goes from left to right and stops at the first misuse or at a request for help.
-/

namespace PagePress.Cli

/-! ## What is asked for -/

/-- What to do. -/
inductive Command where
  /-- Publish the site documents at a path into a folder, or print them. -/
  | publish (path out : String) (json : Bool)
  /-- Compile one stored expression for an element. -/
  | compile (expression elementId : String)
  /-- List the fields that pages can be generated from. -/
  | fields (path : String)
deriving DecidableEq, Repr

/-- A command with the options file that it uses. -/
structure Invocation where
  config : Option String
  command : Command
deriving DecidableEq, Repr

/-- Why a command line asks for nothing to be done. -/
inductive Stop where
  | help
  | misuse
deriving DecidableEq, Repr

/-! ## The shape of commands -/

/-- What an option takes. -/
inductive ValueKind where
  | flag
  | text
  | path
deriving DecidableEq, Repr

/-- The options of a command by name, and whether it takes a plain argument, which is a path. -/
structure Shape where
  options : List (String × ValueKind)
  takesPath : Bool

/-- The option that may stand before and after the command. -/
def configOption : String × ValueKind := ("config", .path)

/-- The shapes of the commands by name. -/
def shapes : List (String × Shape) :=
  [("publish", ⟨[configOption, ("out", .path), ("json", .flag)], true⟩),
    ("compile", ⟨[configOption, ("expression", .text), ("component-id", .text)], false⟩),
    ("fields", ⟨[configOption], true⟩)]

/-- What was found on a command line: options with their values, and plain arguments. -/
structure Found where
  options : List (String × String) := []
  paths : List String := []

/-- Records an option, unless it was given before or its value may not be empty. -/
def Found.addOption (found : Found) (name : String) (kind : ValueKind) (value : String) :
    Except Stop Found :=
  if (found.options.lookup name).isSome || (kind = .path && value.isEmpty) then .error .misuse
  else .ok { found with options := found.options ++ [(name, value)] }

/-- Records a plain argument, if there is a place for it. -/
def Found.addPath (found : Found) (shape : Shape) (path : String) : Except Stop Found :=
  if shape.takesPath && found.paths.isEmpty && !path.isEmpty then
    .ok { found with paths := [path] }
  else .error .misuse

/-! ## Words -/

/-- What a word on a command line is. -/
inductive Word where
  /-- A lone double dash. -/
  | endOfOptions
  /-- A named option, perhaps with its value. -/
  | option (name : String) (value : Option String)
  /-- Letters behind a single dash. -/
  | letters (letters : List Char)
  | plain (text : String)
deriving DecidableEq, Repr

/-- The name of an option and the value behind its first equals sign. -/
def splitEquals : List Char → List Char × Option (List Char)
  | [] => ([], none)
  | '=' :: rest => ([], some rest)
  | c :: rest =>
    let (name, value) := splitEquals rest
    (c :: name, value)

/-- What a word is. -/
def Word.of (text : String) : Word :=
  match text.toList with
  | ['-', '-'] => .endOfOptions
  | '-' :: '-' :: rest =>
    let (name, value) := splitEquals rest
    .option (String.ofList name) (value.map String.ofList)
  | '-' :: c :: rest => .letters (c :: rest)
  | _ => .plain text

/-- Whether a word can be the value of the option before it. -/
def canBeValue (text : String) : Bool :=
  match Word.of text with
  | .plain _ => true
  | _ => false

/-- Whether letters behind a dash ask for help. -/
def asksForHelp (letters : List Char) : Bool := letters.head? = some 'h'

/-! ## Reading -/

/-- Records plain arguments. -/
def readPlain (shape : Shape) : List String → Found → Except Stop Found
  | [], found => .ok found
  | path :: rest, found => do
    readPlain shape rest (← found.addPath shape path)

/-- Reads the words of a command after its name. -/
def readWords (shape : Shape) : List String → Found → Except Stop Found
  | [], found => .ok found
  | word :: rest, found =>
    match Word.of word with
    | .endOfOptions => readPlain shape rest found
    | .letters letters => .error (if asksForHelp letters then .help else .misuse)
    | .plain path => do readWords shape rest (← found.addPath shape path)
    | .option name value =>
      match shape.options.lookup name, value with
      | none, none => .error (if name = "help" then .help else .misuse)
      | none, some _ => .error .misuse
      | some .flag, none => do readWords shape rest (← found.addOption name .flag "")
      | some .flag, some _ => .error .misuse
      | some kind, some value => do readWords shape rest (← found.addOption name kind value)
      | some kind, none =>
        match rest with
        | [] => .error .misuse
        | value :: rest =>
          if canBeValue value then do readWords shape rest (← found.addOption name kind value)
          else .error .misuse

/-- The command that was found under a name. -/
def commandOf (name : String) (found : Found) : Except Stop Command :=
  match name, found.paths with
  | "publish", [path] =>
    .ok (.publish path ((found.options.lookup "out").getD "_site")
      (found.options.lookup "json").isSome)
  | "compile", [] =>
    match found.options.lookup "expression" with
    | some expression =>
      .ok (.compile expression ((found.options.lookup "component-id").getD "cli"))
    | none => .error .misuse
  | "fields", [path] => .ok (.fields path)
  | _, _ => .error .misuse

/-- Whether words after the word `help` name a command or nothing. -/
def namesCommand : List String → Bool
  | [] => true
  | [name] => name = "help" || (shapes.lookup name).isSome
  | _ => false

/-- Reads a command and its words, with what was found before it. -/
def readCommand (name : String) (words : List String) (before : Found) :
    Except Stop Invocation :=
  match shapes.lookup name with
  | some shape => do
    let found ← readWords shape words {}
    let command ← commandOf name found
    return ⟨(found.options.lookup "config").or (before.options.lookup "config"), command⟩
  | none => .error (if name = "help" && namesCommand words then .help else .misuse)

/-- Reads the words before the command and then the command. -/
def readInvocation : List String → Found → Except Stop Invocation
  | [], _ => .error .misuse
  | word :: rest, found =>
    match Word.of word with
    | .endOfOptions => .error .misuse
    | .letters letters => .error (if asksForHelp letters then .help else .misuse)
    | .plain name => readCommand name rest found
    | .option "config" (some value) => do
      readInvocation rest (← found.addOption "config" .path value)
    | .option "config" none =>
      match rest with
      | [] => .error .misuse
      | value :: rest =>
        if canBeValue value then do
          readInvocation rest (← found.addOption "config" .path value)
        else .error .misuse
    | .option name value =>
      .error (if name = "help" && value.isNone then .help else .misuse)

/-- What a command line asks for. -/
def parse (words : List String) : Except Stop Invocation :=
  readInvocation words {}

end PagePress.Cli
