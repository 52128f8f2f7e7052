import PagePress.Proofs.Lines

/-!
# Lines at depths

A program that writes whole lines on a buffer, indenting and returning as it goes, writes a list of
lines, each at a depth of its own. That list does not depend on what was written before, and it
moves as a whole when the program runs at another depth. So it is put together from the lists of the
parts.

## Main results

* `Writes.block` — a block writes its opening, the lines of its body one step deeper, and its
  closing.
* `Writes.text_new` — the text of a buffer that a program has written.
-/

namespace PagePress.LineBuffer

/-- Lines are indented by blanks. -/
theorem mem_repeated {c : Char} {depth : Nat} (h : c ∈ (repeated "  " depth).toList) : c = ' ' := by
  rw [repeated_eq_join, String.toList_join] at h
  obtain ⟨unit, hUnit, hc⟩ := List.mem_flatMap.1 h
  rw [List.eq_of_mem_replicate hUnit] at hc
  simpa using hc

/-- The text of lines with their depths. -/
def layout (lines : List (Nat × String)) : String :=
  String.join (lines.map fun line => wholeLine "  " line.1 line.2)

/-- Lines some steps deeper. -/
def deeper (steps : Nat) (lines : List (Nat × String)) : List (Nat × String) :=
  lines.map fun line => (line.1 + steps, line.2)

theorem layout_append (first second : List (Nat × String)) :
    layout (first ++ second) = layout first ++ layout second := by
  rw [layout, List.map_append, String.join_append, layout, layout]

theorem deeper_append (steps : Nat) (first second : List (Nat × String)) :
    deeper steps (first ++ second) = deeper steps first ++ deeper steps second :=
  List.map_append

theorem deeper_deeper (steps more : Nat) (lines : List (Nat × String)) :
    deeper steps (deeper more lines) = deeper (more + steps) lines := by
  simp [deeper, Function.comp_def, Nat.add_assoc]

/-- A program writes lines: behind the finished lines, deeper by the depth of the buffer. -/
def Writes (program : LineBuffer → LineBuffer) (lines : List (Nat × String)) : Prop :=
  ∀ finished depth,
    program ⟨"  ", finished, "", depth⟩ = ⟨"  ", finished ++ layout (deeper depth lines), "", depth⟩

namespace Writes

variable {program next body : LineBuffer → LineBuffer} {lines others : List (Nat × String)}

theorem addLine (text : String) : Writes (·.addLine text) [(0, text)] := by
  intro finished depth
  have hLine := addLine_of_line (b := ⟨"  ", finished, "", depth⟩) rfl text
  simpa [layout, deeper] using hLine

theorem addLines (texts : List String) :
    Writes (·.addLines texts) (texts.map fun text => (0, text)) := by
  intro finished depth
  have hLines := addLines_of_line texts (b := ⟨"  ", finished, "", depth⟩) rfl
  simpa [layout, deeper, Function.comp_def] using hLines

theorem andThen (hProgram : Writes program lines) (hNext : Writes next others) :
    Writes (fun b => next (program b)) (lines ++ others) := by
  intro finished depth
  show next (program _) = _
  rw [hProgram, hNext, deeper_append, layout_append, String.append_assoc]

theorem indented (hBody : Writes body lines) : Writes (·.indented body) (deeper 1 lines) := by
  intro finished depth
  have hInner := hBody finished (depth + 1)
  show dedent (body ⟨"  ", finished, "", depth + 1⟩) = _
  rw [hInner, dedent, deeper_deeper, Nat.add_comm 1 depth, Nat.add_sub_cancel]

theorem block (hBody : Writes body lines) (opening closing : String) :
    Writes (·.block opening body closing)
      ((0, opening) :: (deeper 1 lines ++ [(0, closing)])) :=
  ((addLine opening).andThen hBody.indented).andThen (addLine closing)

/-- The text of a fresh buffer that was written on. -/
theorem text_new (hProgram : Writes program lines) : (program new).text = layout lines := by
  have hFresh : deeper 0 lines = lines := by simp [deeper]
  have hRun : program new = ⟨"  ", "" ++ layout (deeper 0 lines), "", 0⟩ := hProgram "" 0
  rw [hRun, hFresh, LineBuffer.text, String.empty_append, String.append_empty]

end Writes

end PagePress.LineBuffer
