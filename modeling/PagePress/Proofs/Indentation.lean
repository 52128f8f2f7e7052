import Mathlib.Algebra.Order.Group.Int
import Mathlib.Data.List.Induction
import Mathlib.Data.List.TakeWhile
import Mathlib.Order.Bounds.Basic
import PagePress.LineBuffer

/-!
# Indentation

The calls on a buffer fall into lines: a call that ends a line is the last one of its line. What a
line shows depends on its own calls and on the depth that the calls before have reached. It is the
texts that its calls write, one after the other, and in front of them the indentation for the depth
at the first of them that is not empty.

## Main results

* `lineText_concat` — what one call more adds to a line.
* `depthAfter_isGreatest` — the depth is the greatest surplus of indents over dedents among the most
  recent calls.
* `text_calls` — the text of a buffer, line by line.
-/

namespace PagePress.LineBuffer

variable {call : Call} {calls : List Call}

/-! ## Calls -/

/-- The text that a call writes. -/
def Call.text : Call → String
  | .push text => text
  | .addLine text => text
  | _ => ""

/-- Whether a call ends the line. -/
def Call.ends : Call → Bool
  | .addLine _ => true
  | .newline => true
  | _ => false

/-- The depth after a call. -/
def Call.depthFrom (depth : Nat) : Call → Nat
  | .indent => depth + 1
  | .dedent => depth - 1
  | _ => depth

/-- The depth after calls on a fresh buffer. It is never below zero, so a dedent at depth zero is
lost. -/
def depthAfter (calls : List Call) : Nat := calls.foldl Call.depthFrom 0

theorem depthAfter_concat (calls : List Call) (call : Call) :
    depthAfter (calls ++ [call]) = call.depthFrom (depthAfter calls) := by
  rw [depthAfter, List.foldl_append]
  rfl

theorem line_push (b : LineBuffer) (text : String) :
    (b.push text).line =
      if b.line.isEmpty && !text.isEmpty then String.join (List.replicate b.depth b.unit) ++ text
      else b.line ++ text := by
  rw [push, repeated_eq_join]
  split <;> rfl

/-- Writing changes nothing but the current line. -/
theorem push_eq (b : LineBuffer) (text : String) :
    b.push text = { b with line := (b.push text).line } := by
  unfold push
  split <;> rfl

theorem push_empty (b : LineBuffer) : b.push "" = b := by
  have hEmpty : (b.line.isEmpty && !"".isEmpty) = false := Bool.and_false _
  rw [push_eq, line_push, hEmpty, if_neg Bool.false_ne_true, String.append_empty]

/-- What a call does: it writes its text on the line, ends the line or not, and moves the depth. -/
theorem run_eq (b : LineBuffer) (call : Call) :
    b.run call =
      { b with
        finished := if call.ends then b.finished ++ (b.push call.text).line ++ "\n" else b.finished
        line := if call.ends then "" else (b.push call.text).line
        depth := call.depthFrom b.depth } := by
  cases call with
  | push text => exact push_eq b text
  | addLine text =>
      show (b.push text).newline = _
      rw [push_eq]
      rfl
  | newline =>
      show b.newline = { b with finished := b.finished ++ (b.push "").line ++ "\n", line := "" }
      rw [push_empty]
      rfl
  | indent =>
      show b.indent = { b with line := (b.push "").line, depth := b.depth + 1 }
      rw [push_empty]
      rfl
  | dedent =>
      show b.dedent = { b with line := (b.push "").line, depth := b.depth - 1 }
      rw [push_empty]
      rfl

/-! ## Lines -/

/-- The texts that calls write. -/
def writtenText (calls : List Call) : String := String.join (calls.map Call.text)

/-- The text of a line after other calls: nothing when its calls write nothing, else all that they
write behind the indentation for the depth at the first text that is not empty, the unit that many
times. -/
def lineText (unit : String) (before line : List Call) : String :=
  let silent := line.takeWhile fun call => call.text.isEmpty
  if (writtenText line).isEmpty then ""
  else String.join (List.replicate (depthAfter (before ++ silent)) unit) ++ writtenText line

theorem writtenText_concat (calls : List Call) (call : Call) :
    writtenText (calls ++ [call]) = writtenText calls ++ call.text := by
  simp [writtenText, String.join_append]

theorem writtenText_eq_empty_iff :
    writtenText calls = "" ↔ ∀ call ∈ calls, call.text.isEmpty = true := by
  rw [← String.toList_eq_nil_iff, writtenText, String.toList_join, List.flatMap_eq_nil_iff,
    List.forall_mem_map]
  simp only [String.toList_eq_nil_iff, String.isEmpty_iff]

theorem lineText_of_silent {unit : String} {before line : List Call} (h : writtenText line = "") :
    lineText unit before line = "" :=
  if_pos (String.isEmpty_iff.2 h)

theorem lineText_of_written {unit : String} {before line : List Call} (h : writtenText line ≠ "") :
    lineText unit before line =
      String.join (List.replicate
        (depthAfter (before ++ line.takeWhile fun call => call.text.isEmpty)) unit) ++
          writtenText line :=
  if_neg fun hEmpty => h (String.isEmpty_iff.1 hEmpty)

/-- A line on which something is written keeps its indentation. -/
theorem takeWhile_concat (h : writtenText calls ≠ "") (call : Call) :
    (calls ++ [call]).takeWhile (fun call => call.text.isEmpty) =
      calls.takeWhile fun call => call.text.isEmpty := by
  rw [List.takeWhile_append, if_neg]
  intro hLength
  refine h (writtenText_eq_empty_iff.2 ?_)
  exact List.takeWhile_eq_self_iff.1 ((List.takeWhile_prefix _).eq_of_length hLength)

/-- What one call more adds to a line: its text, and the indentation for the depth there when this
is the first text of the line. -/
theorem lineText_concat (unit : String) (before line : List Call) (call : Call) :
    lineText unit before (line ++ [call]) =
      if (lineText unit before line).isEmpty && !call.text.isEmpty then
        String.join (List.replicate (depthAfter (before ++ line)) unit) ++ call.text
      else lineText unit before line ++ call.text := by
  have hWritten := writtenText_concat line call
  by_cases hLine : writtenText line = ""
  · rw [lineText_of_silent hLine]
    rw [hLine, String.empty_append] at hWritten
    by_cases hText : call.text = ""
    · rw [lineText_of_silent (hWritten.trans hText), hText]
      rfl
    · have hSilent : (line ++ [call]).takeWhile (fun call => call.text.isEmpty) = line := by
        rw [List.takeWhile_append_of_pos (writtenText_eq_empty_iff.1 hLine),
          List.takeWhile_cons_of_neg (by simpa using hText), List.append_nil]
      rw [lineText_of_written (hWritten ▸ hText), hSilent, hWritten, if_pos (by simpa using hText)]
  · have hBoth : writtenText (line ++ [call]) ≠ "" := by
      rw [hWritten, ne_eq, String.append_eq_empty_iff, not_and_or]
      exact .inl hLine
    have hShown : lineText unit before line ≠ "" := by
      rw [lineText_of_written hLine, ne_eq, String.append_eq_empty_iff, not_and_or]
      exact .inr hLine
    rw [if_neg (by simp [hShown]), lineText_of_written hBoth, lineText_of_written hLine,
      takeWhile_concat hLine, hWritten, String.append_assoc]

/-- The texts of whole lines after other calls, each with its line feed. -/
def linesText (unit : String) (before : List Call) : List (List Call) → String
  | [] => ""
  | line :: lines =>
    lineText unit before line ++ "\n" ++ linesText unit (before ++ line) lines

theorem linesText_concat (unit : String) (before : List Call) (lines : List (List Call))
    (line : List Call) :
    linesText unit before (lines ++ [line]) =
      linesText unit before lines ++ lineText unit (before ++ lines.flatten) line ++ "\n" := by
  induction lines generalizing before with
  | nil => simp [linesText]
  | cons first lines ih =>
      rw [List.cons_append, linesText, ih, linesText, List.flatten_cons]
      simp only [String.append_assoc, List.append_assoc]

/-! ## Depths -/

/-- How many more indents than dedents there are among calls. -/
def surplus (calls : List Call) : Int := (calls.count .indent : Int) - calls.count .dedent

/-- A call moves the depth by one or not at all, and not below zero. -/
theorem depthFrom_eq (depth : Nat) (call : Call) :
    (call.depthFrom depth : Int) = max 0 (depth + surplus [call]) := by
  cases call with
  | indent =>
      have hSurplus : surplus [.indent] = 1 := by decide
      rw [hSurplus, Call.depthFrom]
      omega
  | dedent =>
      have hSurplus : surplus [.dedent] = -1 := by decide
      rw [hSurplus, Call.depthFrom]
      omega
  | push text => exact (max_eq_right (Int.natCast_nonneg depth)).symm
  | addLine text => exact (max_eq_right (Int.natCast_nonneg depth)).symm
  | newline => exact (max_eq_right (Int.natCast_nonneg depth)).symm

theorem surplus_append (first second : List Call) :
    surplus (first ++ second) = surplus first + surplus second := by
  simp only [surplus, List.count_append]
  omega

/-- The depth after calls is the greatest surplus of indents over dedents among those made last,
however many of them are looked at. -/
theorem depthAfter_isGreatest (calls : List Call) :
    IsGreatest {n : Int | ∃ recent, recent <:+ calls ∧ surplus recent = n} (depthAfter calls) := by
  induction calls using List.reverseRecOn with
  | nil =>
      refine ⟨⟨[], List.suffix_rfl, rfl⟩, ?_⟩
      rintro n ⟨recent, hRecent, rfl⟩
      rw [List.suffix_nil.1 hRecent]
      rfl
  | append_singleton calls call ih =>
      rw [depthAfter_concat, depthFrom_eq]
      obtain ⟨⟨recent, hRecent, hSurplus⟩, hGreatest⟩ := ih
      constructor
      · rcases le_total (depthAfter calls + surplus [call]) 0 with hLost | hMoved
        · exact ⟨[], List.nil_suffix, (max_eq_left hLost).symm⟩
        · refine ⟨recent ++ [call], ?_, ?_⟩
          · exact List.suffix_concat_iff.2 (.inr ⟨recent, rfl, hRecent⟩)
          · rw [surplus_append, hSurplus, max_eq_right hMoved]
      · rintro n ⟨others, hOthers, rfl⟩
        rcases List.suffix_concat_iff.1 hOthers with rfl | ⟨earlier, rfl, hEarlier⟩
        · exact le_max_left _ _
        · have hLess := hGreatest ⟨earlier, hEarlier, rfl⟩
          rw [surplus_append]
          exact le_max_of_le_right (Int.add_le_add_right hLess _)

/-! ## Texts of buffers -/

/-- A line of calls: its last call ends it, and no other one does. -/
def IsLine (calls : List Call) : Prop :=
  ∃ unended last, calls = unended ++ [last] ∧ (∀ call ∈ unended, call.ends = false) ∧
    last.ends = true

/-- The buffer after calls that are whole lines and a line that is not ended. -/
def after (unit : String) (lines : List (List Call)) (last : List Call) : LineBuffer :=
  ⟨unit, linesText unit [] lines, lineText unit lines.flatten last,
    depthAfter (lines.flatten ++ last)⟩

theorem after_line (unit : String) (lines : List (List Call)) (line : List Call) :
    after unit (lines ++ [line]) [] =
      ⟨unit, linesText unit [] lines ++ lineText unit lines.flatten line ++ "\n", "",
        depthAfter (lines.flatten ++ line)⟩ := by
  rw [after, linesText_concat, List.nil_append, List.append_nil, List.flatten_append,
    List.flatten_singleton]
  rfl

/-- One call more goes on the last line. If it ends that line, a new one starts. -/
theorem run_after (unit : String) (lines : List (List Call)) (last : List Call) (call : Call) :
    (after unit lines last).run call =
      if call.ends then after unit (lines ++ [last ++ [call]]) []
      else after unit lines (last ++ [call]) := by
  have hLine : ((after unit lines last).push call.text).line =
      lineText unit lines.flatten (last ++ [call]) := by
    rw [line_push, lineText_concat]
    rfl
  have hDepth : call.depthFrom (after unit lines last).depth =
      depthAfter (lines.flatten ++ (last ++ [call])) := by
    rw [← List.append_assoc, depthAfter_concat]
    rfl
  rw [run_eq, hLine, hDepth, after_line]
  cases call.ends <;> rfl

/-- Calls on a fresh buffer are whole lines and a line that is not ended. -/
theorem foldl_run (unit : String) (calls : List Call) :
    ∃ lines last, calls = lines.flatten ++ last ∧ (∀ line ∈ lines, IsLine line) ∧
      (∀ call ∈ last, call.ends = false) ∧
      calls.foldl run (withUnit unit) = after unit lines last := by
  induction calls using List.reverseRecOn with
  | nil => exact ⟨[], [], rfl, List.forall_mem_nil _, List.forall_mem_nil _, rfl⟩
  | append_singleton calls call ih =>
      obtain ⟨lines, last, rfl, hLines, hLast, hRun⟩ := ih
      rw [List.foldl_append, hRun, List.foldl_cons, List.foldl_nil, run_after]
      cases hEnds : call.ends with
      | true =>
          refine ⟨lines ++ [last ++ [call]], [], by simp, ?_, List.forall_mem_nil _, rfl⟩
          refine List.forall_mem_append.2 ⟨hLines, List.forall_mem_singleton.2 ?_⟩
          exact ⟨last, call, rfl, hLast, hEnds⟩
      | false =>
          refine ⟨lines, last ++ [call], by simp, hLines, ?_, rfl⟩
          exact List.forall_mem_append.2 ⟨hLast, List.forall_mem_singleton.2 hEnds⟩

/-- Calls on a fresh buffer are whole lines and a last line that is not ended, and the text of the
buffer is that of these lines. The depth, by which lines are indented, is that of the buffer; it
counts indents less dedents and is never below zero. -/
theorem text_calls (unit : String) (calls : List Call) :
    ∃ (lines : List (List Call)) (last : List Call), calls = lines.flatten ++ last ∧
      (∀ line ∈ lines, IsLine line) ∧ (∀ call ∈ last, call.ends = false) ∧
      (calls.foldl run (withUnit unit)).text =
        linesText unit [] lines ++ lineText unit lines.flatten last ∧
      (calls.foldl run (withUnit unit)).depth = depthAfter calls ∧
      IsGreatest {n : Int | ∃ recent, recent <:+ calls ∧ surplus recent = n}
        (depthAfter calls) := by
  obtain ⟨lines, last, rfl, hLines, hLast, hRun⟩ := foldl_run unit calls
  refine ⟨lines, last, rfl, hLines, hLast, ?_, ?_, depthAfter_isGreatest _⟩
  · rw [hRun]
    rfl
  · rw [hRun]
    rfl

example : ([.dedent, .push "", .indent, .push "a", .indent, .addLine "b", .push "c"].foldl run
    (withUnit "--")).text = "--ab\n----c" := by decide

end PagePress.LineBuffer
