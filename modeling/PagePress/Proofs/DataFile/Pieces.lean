import PagePress.Proofs.DataFile.Layout
import PagePress.Proofs.DataFile.Literals

/-!
# Pieces of a script

A line of a generated script is a list of pieces: source that is the same whatever is sent, texts
that stand as they are, and texts in literals. A script is its lines at their depths, so it is a
list of pieces as well, when indentation and line feeds count as source. In such a list every
literal is read as its text, and reading it ends where the piece behind it starts.

## Main results

* `read_written` — a literal among pieces is read as its text and ends where the next piece starts.
* `layout_eq_written` — the text of lines at depths, piece by piece.
* `Prints.block` — a block prints its opening, the lines of its body one step deeper, its closing.
-/

namespace PagePress.Script

/-- A part of a line of a script. -/
inductive Piece where
  /-- Source that is the same whatever is sent. -/
  | fixed (text : String)
  /-- A text that stands as it is. -/
  | inserted (text : String)
  /-- A text in a literal. -/
  | literal (kind : Literal) (text : String)
deriving DecidableEq, Repr

/-- The source of a piece. -/
def Piece.write : Piece → String
  | fixed text => text
  | inserted text => text
  | literal kind text => kind.write text

/-- The literal that a piece is, with its text. -/
def Piece.literal? : Piece → Option (Literal × String)
  | literal kind text => some (kind, text)
  | _ => none

/-- The source of pieces. -/
def written (pieces : List Piece) : String := String.join (pieces.map Piece.write)

/-- The literals among pieces, with their texts. -/
def literals (pieces : List Piece) : List (Literal × String) := pieces.filterMap Piece.literal?

@[simp] theorem written_nil : written [] = "" := rfl

@[simp] theorem written_cons (piece : Piece) (pieces : List Piece) :
    written (piece :: pieces) = piece.write ++ written pieces :=
  String.join_cons

@[simp] theorem written_append (first second : List Piece) :
    written (first ++ second) = written first ++ written second := by
  rw [written, List.map_append, String.join_append, written, written]

theorem mem_literals_iff {kind : Literal} {text : String} {pieces : List Piece} :
    (kind, text) ∈ literals pieces ↔ .literal kind text ∈ pieces := by
  rw [literals, List.mem_filterMap]
  constructor
  · rintro ⟨piece, hPiece, hLiteral⟩
    cases piece <;> cases hLiteral
    exact hPiece
  · exact fun hPiece => ⟨_, hPiece, rfl⟩

/-- A literal among pieces is read as its text, and what is left are the pieces behind it. -/
theorem read_written (before after : List Piece) (kind : Literal) (text : String) :
    ∃ tail, (written (before ++ .literal kind text :: after)).toList =
        (written before).toList ++ kind.delimiter :: tail ∧
      kind.read tail = some (text.toList, (written after).toList) := by
  refine ⟨kind.escape text.toList ++ kind.delimiter :: (written after).toList, ?_,
    kind.read_escape _ _⟩
  rw [written_append, written_cons, String.toList_append, String.toList_append, Piece.write,
    Literal.toList_write]
  simp

/-! ## Lines -/

/-- A line of a script at a depth. -/
structure Line where
  depth : Nat
  pieces : List Piece
deriving DecidableEq, Repr

namespace Line

/-- A line without indentation that is the same whatever is sent. -/
def fixed (text : String) : Line := ⟨0, [.fixed text]⟩

/-- A line some steps deeper. -/
def deeper (steps : Nat) (line : Line) : Line := { line with depth := line.depth + steps }

/-- The depth and the text of a line. -/
def entry (line : Line) : Nat × String := (line.depth, written line.pieces)

theorem entry_fixed (text : String) : (fixed text).entry = (0, text) := by
  simp [fixed, entry, Piece.write]

/-- The blanks before a line. An empty line has none. -/
def indentation (line : Line) : String :=
  if (written line.pieces).isEmpty then "" else LineBuffer.repeated "  " line.depth

/-- The pieces of a line with its indentation and its line feed. -/
def parts (line : Line) : List Piece :=
  .fixed line.indentation :: (line.pieces ++ [.fixed "\n"])

theorem wholeLine_entry (line : Line) :
    LineBuffer.wholeLine "  " line.entry.1 line.entry.2 = written line.parts := by
  rw [parts, written_cons, written_append, entry, LineBuffer.wholeLine, indentation]
  by_cases hEmpty : (written line.pieces).isEmpty = true
  · simp [String.isEmpty_iff.1 hEmpty, Piece.write]
  · simp [hEmpty, Piece.write, String.append_assoc]

end Line

/-- A line, others one step deeper, and a line that closes them. -/
def block (opening : Line) (body : List Line) (closing : String) : List Line :=
  opening :: (body.map (Line.deeper 1) ++ [.fixed closing])

/-- The pieces of lines with their indentation and their line feeds. -/
def parts (lines : List Line) : List Piece := lines.flatMap Line.parts

theorem parts_cons (line : Line) (lines : List Line) :
    parts (line :: lines) = line.parts ++ parts lines :=
  List.flatMap_cons

theorem parts_append (first second : List Line) :
    parts (first ++ second) = parts first ++ parts second :=
  List.flatMap_append

/-- The text of lines at depths, piece by piece. -/
theorem layout_eq_written (lines : List Line) :
    LineBuffer.layout (lines.map Line.entry) = written (parts lines) := by
  induction lines with
  | nil => rfl
  | cons line rest ih =>
      rw [LineBuffer.layout] at ih ⊢
      rw [List.map_cons, List.map_cons, String.join_cons, ih, Line.wholeLine_entry, parts_cons,
        written_append]

/-! ## Literals of lines -/

@[simp] theorem literals_nil : literals [] = [] := rfl

@[simp] theorem literals_fixed (text : String) (pieces : List Piece) :
    literals (.fixed text :: pieces) = literals pieces := rfl

@[simp] theorem literals_inserted (text : String) (pieces : List Piece) :
    literals (.inserted text :: pieces) = literals pieces := rfl

@[simp] theorem literals_literal (kind : Literal) (text : String) (pieces : List Piece) :
    literals (.literal kind text :: pieces) = (kind, text) :: literals pieces := rfl

@[simp] theorem literals_append (first second : List Piece) :
    literals (first ++ second) = literals first ++ literals second :=
  List.filterMap_append

theorem literals_parts (lines : List Line) :
    literals (parts lines) = lines.flatMap fun line => literals line.pieces := by
  induction lines with
  | nil => rfl
  | cons line rest ih =>
      have hLine : literals line.parts = literals line.pieces := by simp [Line.parts]
      rw [parts_cons, List.flatMap_cons, literals_append, hLine, ih]

theorem literals_parts_cons (line : Line) (lines : List Line) :
    literals (parts (line :: lines)) = literals line.pieces ++ literals (parts lines) := by
  rw [literals_parts, literals_parts, List.flatMap_cons]

theorem literals_parts_append (first second : List Line) :
    literals (parts (first ++ second)) = literals (parts first) ++ literals (parts second) := by
  rw [literals_parts, literals_parts, literals_parts, List.flatMap_append]

/-- The literals of lines do not depend on their depths. -/
theorem literals_parts_deeper (steps : Nat) (lines : List Line) :
    literals (parts (lines.map (Line.deeper steps))) = literals (parts lines) := by
  rw [literals_parts, literals_parts, List.flatMap_map]
  rfl

theorem literals_parts_block (opening : Line) (body : List Line) (closing : String) :
    literals (parts (block opening body closing)) =
      literals opening.pieces ++ literals (parts body) := by
  rw [block, literals_parts_cons, literals_parts_append, literals_parts_deeper, Line.fixed]
  simp [parts, Line.parts]

/-! ## Programs that print lines -/

/-- A program writes lines of a script on a buffer. -/
def Prints (program : LineBuffer → LineBuffer) (lines : List Line) : Prop :=
  LineBuffer.Writes program (lines.map Line.entry)

theorem map_entry_deeper (steps : Nat) (lines : List Line) :
    (lines.map (Line.deeper steps)).map Line.entry =
      LineBuffer.deeper steps (lines.map Line.entry) := by
  simp [LineBuffer.deeper, Line.entry, Line.deeper, Function.comp_def]

namespace Prints

variable {program next body : LineBuffer → LineBuffer} {lines others : List Line} {text : String}

theorem addLine {line : Line} (h : line.entry = (0, text)) : Prints (·.addLine text) [line] := by
  rw [Prints, List.map_singleton, h]
  exact LineBuffer.Writes.addLine text

theorem andThen (hProgram : Prints program lines) (hNext : Prints next others) :
    Prints (fun b => next (program b)) (lines ++ others) := by
  rw [Prints, List.map_append]
  exact LineBuffer.Writes.andThen hProgram hNext

theorem indented (hBody : Prints body lines) :
    Prints (·.indented body) (lines.map (Line.deeper 1)) := by
  rw [Prints, map_entry_deeper]
  exact LineBuffer.Writes.indented hBody

theorem block {opening : Line} (hOpening : opening.entry = (0, text)) (hBody : Prints body lines)
    (closing : String) :
    Prints (·.block text body closing) (block opening lines closing) :=
  ((addLine hOpening).andThen hBody.indented).andThen (addLine (Line.entry_fixed closing))

end Prints

end PagePress.Script
