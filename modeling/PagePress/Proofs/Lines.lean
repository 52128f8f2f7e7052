import PagePress.Block

/-!
# Lines of a liquid tag

A line that is written as a whole is indented unless it is empty. So the tag around statements is
its first line, a line for each statement, and its end.

## Main results

* `addLines_of_line` — what whole lines add to a buffer.
* `liquidTag_eq`, `liquidTag_of_ne_empty` — the text of a liquid tag.
-/

namespace PagePress

namespace LineBuffer

/-- A whole line at a depth with its line feed. -/
def wholeLine (unit : String) (depth : Nat) (text : String) : String :=
  (if text.isEmpty then "" else repeated unit depth ++ text) ++ "\n"

theorem addLine_of_line {b : LineBuffer} (h : b.line = "") (text : String) :
    b.addLine text = { b with finished := b.finished ++ wholeLine b.unit b.depth text } := by
  obtain ⟨unit, finished, line, depth⟩ := b
  obtain rfl : line = "" := h
  by_cases hText : text.isEmpty = true
  · obtain rfl := String.isEmpty_iff.1 hText
    simp [addLine, push, newline, wholeLine]
  · simp [addLine, push, newline, wholeLine, hText, String.append_assoc]

theorem addLines_of_line (lines : List String) {b : LineBuffer} (h : b.line = "") :
    b.addLines lines = { b with
      finished := b.finished ++ String.join (lines.map (wholeLine b.unit b.depth)) } := by
  induction lines generalizing b with
  | nil => simp [addLines]
  | cons text rest ih =>
      have hLine := addLine_of_line h text
      have hRest := ih (b := b.addLine text) (by rw [hLine]; exact h)
      have hCons : b.addLines (text :: rest) = (b.addLine text).addLines rest := rfl
      rw [hCons, hRest, hLine]
      simp [String.join_cons, String.append_assoc]

end LineBuffer

theorem Block.liquidTag_eq (statements : List String) :
    liquidTag statements = "\x7b% liquid\n" ++
      String.join (statements.map (LineBuffer.wholeLine "  " 1)) ++ "%\x7d" := by
  have hFirst : (LineBuffer.new.addLine "\x7b% liquid").indent =
      ⟨"  ", "\x7b% liquid\n", "", 1⟩ := by
    decide
  have hLines := LineBuffer.addLines_of_line statements
    (show (⟨"  ", "\x7b% liquid\n", "", 1⟩ : LineBuffer).line = "" from rfl)
  rw [liquidTag, LineBuffer.indented, hFirst, hLines]
  simp [LineBuffer.dedent, LineBuffer.push, LineBuffer.text, LineBuffer.repeated]

/-- In a tag all lines are indented when none is empty. -/
theorem Block.liquidTag_of_ne_empty {statements : List String}
    (h : ∀ line ∈ statements, line ≠ "") :
    liquidTag statements = "\x7b% liquid\n" ++
      String.join (statements.map fun line => "  " ++ line ++ "\n") ++ "%\x7d" := by
  have hLines : statements.map (LineBuffer.wholeLine "  " 1) =
      statements.map fun line => "  " ++ line ++ "\n" := by
    apply List.map_congr_left
    intro line hLine
    simp [LineBuffer.wholeLine, LineBuffer.repeated, h line hLine]
  rw [liquidTag_eq, hLines]

end PagePress
