/-!
# Indented lines

Generated source is written line by line at a depth. The indentation of a line is decided by the
first text written on it that is not empty, so an empty line has none.

## Main results

* `repeated_eq_join` — an indentation is its unit as often as its depth says.
-/

namespace PagePress

/-- Lines written so far, and the line that is being written. -/
structure LineBuffer where
  /-- One step of indentation. -/
  unit : String
  /-- The finished lines with their line feeds. -/
  finished : String
  /-- The line being written. -/
  line : String
  /-- How many steps a line is indented. -/
  depth : Nat
deriving DecidableEq, Repr

namespace LineBuffer

/-- A buffer without lines, with a unit of indentation. -/
def withUnit (unit : String) : LineBuffer := ⟨unit, "", "", 0⟩

/-- A buffer without lines that indents by two spaces. -/
def new : LineBuffer := withUnit "  "

/-- A text several times. -/
def repeated (text : String) : Nat → String
  | 0 => ""
  | n + 1 => text ++ repeated text n

/-- A text several times is so many copies of it, joined. -/
theorem repeated_eq_join (text : String) (n : Nat) :
    repeated text n = String.join (List.replicate n text) := by
  induction n with
  | zero => rfl
  | succ n ih => rw [repeated, ih, List.replicate_succ, String.join_cons]

/-- Writes on the current line. -/
def push (b : LineBuffer) (text : String) : LineBuffer :=
  if b.line.isEmpty && !text.isEmpty then { b with line := repeated b.unit b.depth ++ text }
  else { b with line := b.line ++ text }

/-- Ends the current line. -/
def newline (b : LineBuffer) : LineBuffer :=
  { b with finished := b.finished ++ b.line ++ "\n", line := "" }

/-- Writes a text and ends the line. -/
def addLine (b : LineBuffer) (text : String) : LineBuffer :=
  (b.push text).newline

/-- Indents the lines to come by one step more. -/
def indent (b : LineBuffer) : LineBuffer :=
  { b with depth := b.depth + 1 }

/-- Indents the lines to come by one step less, if they are indented. -/
def dedent (b : LineBuffer) : LineBuffer :=
  { b with depth := b.depth - 1 }

/-- All that was written; the last line has no line feed unless it was ended. -/
def text (b : LineBuffer) : String :=
  b.finished ++ b.line

/-- Writes several lines. -/
def addLines (b : LineBuffer) (lines : List String) : LineBuffer :=
  lines.foldl addLine b

/-- Writes indented parts between the current lines. -/
def indented (b : LineBuffer) (body : LineBuffer → LineBuffer) : LineBuffer :=
  (body b.indent).dedent

/-- Writes a line, an indented body and a closing line. -/
def block (b : LineBuffer) (opening : String) (body : LineBuffer → LineBuffer)
    (closing : String) : LineBuffer :=
  ((b.addLine opening).indented body).addLine closing

/-- One call on a buffer. -/
inductive Call where
  | push (text : String)
  | addLine (text : String)
  | newline
  | indent
  | dedent
deriving DecidableEq, Repr

/-- The buffer after a call. -/
def run (b : LineBuffer) : Call → LineBuffer
  | .push text => b.push text
  | .addLine text => b.addLine text
  | .newline => b.newline
  | .indent => b.indent
  | .dedent => b.dedent

end LineBuffer

end PagePress
