/-!
# Pieces and lines of a text

Cutting a text at a separator, and the lines of a text. A line feed ends a line, a carriage return
just before it belongs to the line end, and a text that ends in a line feed has no empty last line.

## Main results

* `intercalate_cut` — cutting loses nothing: the pieces joined by the separator are the text.
* `separator_not_mem_cut` — no piece holds the separator.
* `hasLines_iff` — the lines of a text by its line ends.
* `count_join_lines` — the lines hold all characters but those of line ends.
-/

namespace PagePress.Text

/-- The pieces between the occurrences of a separator, one more than there are occurrences. -/
def cut (separator : Char) : List Char → List (List Char)
  | [] => [[]]
  | c :: cs =>
    if c = separator then [] :: cut separator cs
    else match cut separator cs with
      | [] => [[c]]
      | piece :: pieces => (c :: piece) :: pieces

theorem cut_ne_nil (separator : Char) (cs : List Char) : cut separator cs ≠ [] := by
  induction cs with
  | nil => simp [cut]
  | cons c cs ih =>
    simp only [cut]
    split
    · simp
    · split <;> simp

theorem separator_not_mem_cut (separator : Char) (cs : List Char) :
    ∀ piece ∈ cut separator cs, separator ∉ piece := by
  induction cs with
  | nil => simp [cut]
  | cons c cs ih =>
    simp only [cut]
    split
    · intro piece hp
      rcases List.mem_cons.1 hp with rfl | hp
      · simp
      · exact ih piece hp
    · rename_i hc
      split
      · intro piece hp
        have : piece = [c] := by simpa using hp
        subst this
        simpa using fun h => hc h.symm
      · rename_i first rest heq
        rw [heq] at ih
        intro piece hp
        rcases List.mem_cons.1 hp with rfl | hp
        · intro hm
          rcases List.mem_cons.1 hm with h | h
          · exact hc h.symm
          · exact ih first (by simp) h
        · exact ih piece (by simp [hp])

theorem intercalate_cut (separator : Char) (cs : List Char) :
    [separator].intercalate (cut separator cs) = cs := by
  induction cs with
  | nil => rfl
  | cons c cs ih =>
    have hne := cut_ne_nil separator cs
    simp only [cut]
    split
    · rename_i hc
      subst hc
      cases hcut : cut c cs with
      | nil => exact absurd hcut hne
      | cons piece pieces => rw [hcut] at ih; simp [List.intercalate_cons_cons, ih]
    · split
      · rename_i hcut
        exact absurd hcut hne
      · rename_i piece pieces hcut
        rw [hcut] at ih
        cases pieces with
        | nil => simpa [List.intercalate] using ih
        | cons next others => simpa [List.intercalate_cons_cons] using ih

theorem cut_append (separator : Char) (a b : List Char) :
    cut separator (a ++ separator :: b) = cut separator a ++ cut separator b := by
  induction a with
  | nil => simp [cut]
  | cons c a ih =>
      rw [List.cons_append, cut, cut]
      split
      · rw [ih, List.cons_append]
      · rw [ih]
        cases hCut : cut separator a with
        | nil => exact absurd hCut (cut_ne_nil separator a)
        | cons piece pieces => rfl

theorem cut_of_not_mem {separator : Char} {cs : List Char} (h : separator ∉ cs) :
    cut separator cs = [cs] := by
  induction cs with
  | nil => rfl
  | cons c cs ih =>
      obtain ⟨hHead, hTail⟩ := not_or.1 (fun hOr => h (List.mem_cons.2 hOr))
      rw [cut, if_neg (Ne.symm hHead), ih hTail]

/-! ## Lines -/

/-- A line without the carriage return at its end, when it has one. -/
def dropReturn : List Char → List Char
  | [] => []
  | ['\r'] => []
  | c :: cs => c :: dropReturn cs

/-- The lines among pieces cut at line feeds: all but the last lost their line feed, and the last
is a line only when it has text. -/
def linesOfPieces : List (List Char) → List (List Char)
  | [] => []
  | [last] => if last.isEmpty then [] else [last]
  | piece :: pieces => dropReturn piece :: linesOfPieces pieces

/-- The lines of a text, without their line ends. -/
def lines (text : String) : List String :=
  (linesOfPieces (cut '\n' text.toList)).map String.ofList

/-- The pieces of a text between the occurrences of a separator. -/
def cutText (separator : Char) (text : String) : List String :=
  (cut separator text.toList).map String.ofList

/-- The lines of a text, said by its line ends: a line feed, or a carriage return and a line feed.
What stands behind the last of them is a line when it has text. -/
inductive HasLines : List Char → List (List Char) → Prop
  | nil : HasLines [] []
  | last {cs : List Char} (hText : cs ≠ []) (hFeed : '\n' ∉ cs) : HasLines cs [cs]
  | feed {line rest : List Char} {others : List (List Char)} (hFeed : '\n' ∉ line)
      (hReturn : line.getLast? ≠ some '\r') (hRest : HasLines rest others) :
      HasLines (line ++ '\n' :: rest) (line :: others)
  | returnFeed {line rest : List Char} {others : List (List Char)} (hFeed : '\n' ∉ line)
      (hRest : HasLines rest others) : HasLines (line ++ '\r' :: '\n' :: rest) (line :: others)

theorem linesOfPieces_cons {piece : List Char} {pieces : List (List Char)} (h : pieces ≠ []) :
    linesOfPieces (piece :: pieces) = dropReturn piece :: linesOfPieces pieces := by
  cases pieces with
  | nil => exact absurd rfl h
  | cons next others => rfl

theorem dropReturn_append_return (cs : List Char) : dropReturn (cs ++ ['\r']) = cs := by
  induction cs with
  | nil => rfl
  | cons c cs ih =>
      rw [List.cons_append, dropReturn, ih]
      simp

theorem dropReturn_of_getLast? {cs : List Char} (h : cs.getLast? ≠ some '\r') :
    dropReturn cs = cs := by
  induction cs with
  | nil => rfl
  | cons c cs ih =>
      cases cs with
      | nil =>
          rw [dropReturn]
          · rfl
          · rintro rfl
            exact absurd rfl h
      | cons d rest =>
          rw [List.getLast?_cons_cons] at h
          rw [dropReturn, ih h]
          simp

theorem dropReturn_of_not_mem {cs : List Char} (h : '\r' ∉ cs) : dropReturn cs = cs :=
  dropReturn_of_getLast? fun hLast => h (List.mem_of_getLast? hLast)

theorem linesOfPieces_cut_append {line : List Char} (hFeed : '\n' ∉ line) (rest : List Char) :
    linesOfPieces (cut '\n' (line ++ '\n' :: rest)) =
      dropReturn line :: linesOfPieces (cut '\n' rest) := by
  rw [cut_append, cut_of_not_mem hFeed, List.singleton_append, linesOfPieces_cons (cut_ne_nil _ _)]

theorem HasLines.linesOfPieces_eq {cs : List Char} {found : List (List Char)}
    (h : HasLines cs found) : linesOfPieces (cut '\n' cs) = found := by
  induction h with
  | nil => rfl
  | last hText hFeed =>
      rw [cut_of_not_mem hFeed, linesOfPieces, if_neg (by simpa using hText)]
  | feed hFeed hReturn _ ih =>
      rw [linesOfPieces_cut_append hFeed, dropReturn_of_getLast? hReturn, ih]
  | @returnFeed line rest _ hFeed _ ih =>
      have hLine : '\n' ∉ line ++ ['\r'] := by simpa using hFeed
      have hText : line ++ '\r' :: '\n' :: rest = line ++ ['\r'] ++ '\n' :: rest := by simp
      rw [hText, linesOfPieces_cut_append hLine, dropReturn_append_return, ih]

theorem hasLines_linesOfPieces (cs : List Char) : HasLines cs (linesOfPieces (cut '\n' cs)) := by
  by_cases hFeed : '\n' ∈ cs
  · obtain ⟨line, rest, rfl, hLine⟩ := List.eq_append_cons_of_mem hFeed
    have hRest := hasLines_linesOfPieces rest
    rw [linesOfPieces_cut_append hLine]
    by_cases hReturn : line.getLast? = some '\r'
    · obtain ⟨start, rfl⟩ := List.getLast?_eq_some_iff.1 hReturn
      have hStart : '\n' ∉ start := fun hMem => hLine (List.mem_append_left _ hMem)
      rw [dropReturn_append_return, List.append_assoc]
      exact .returnFeed hStart hRest
    · rw [dropReturn_of_getLast? hReturn]
      exact .feed hLine hReturn hRest
  · rw [cut_of_not_mem hFeed]
    cases cs with
    | nil => exact .nil
    | cons c cs => exact .last (List.cons_ne_nil _ _) hFeed
termination_by cs.length

theorem hasLines_iff {text : String} {found : List (List Char)} :
    HasLines text.toList found ↔ (lines text).map String.toList = found := by
  have hLines : (lines text).map String.toList = linesOfPieces (cut '\n' text.toList) := by
    simp [lines, Function.comp_def]
  rw [hLines]
  refine ⟨HasLines.linesOfPieces_eq, ?_⟩
  rintro rfl
  exact hasLines_linesOfPieces _

/-! ## Characters of lines -/

variable {c : Char}

theorem count_flatten_cut {separator : Char} (h : c ≠ separator) (cs : List Char) :
    (cut separator cs).flatten.count c = cs.count c := by
  induction cs with
  | nil => rfl
  | cons d cs ih =>
      rw [cut]
      by_cases hd : d = separator
      · rw [if_pos hd, List.flatten_cons, List.nil_append, ih,
          List.count_cons_of_ne (fun hEq => h (hEq.symm.trans hd))]
      · rw [if_neg hd]
        cases hCut : cut separator cs with
        | nil => exact absurd hCut (cut_ne_nil _ _)
        | cons piece pieces =>
            rw [hCut, List.flatten_cons] at ih
            rw [List.flatten_cons, List.cons_append, List.count_cons, ih, List.count_cons]

theorem count_dropReturn (h : c ≠ '\r') (cs : List Char) :
    (dropReturn cs).count c = cs.count c := by
  induction cs using dropReturn.induct with
  | case1 => rfl
  | case2 => exact (List.count_cons_of_ne h.symm).symm
  | case3 d rest hNot ih => rw [dropReturn.eq_3 d rest hNot, List.count_cons, ih, List.count_cons]

theorem count_flatten_linesOfPieces (h : c ≠ '\r') (pieces : List (List Char)) :
    (linesOfPieces pieces).flatten.count c = pieces.flatten.count c := by
  induction pieces using linesOfPieces.induct with
  | case1 => rfl
  | case2 last hEmpty => simp [linesOfPieces, List.isEmpty_iff.1 hEmpty]
  | case3 last hSome => simp [linesOfPieces, hSome]
  | case4 piece rest hMore ih =>
      rw [linesOfPieces.eq_3 piece rest hMore, List.flatten_cons, List.count_append, ih,
        count_dropReturn h, List.flatten_cons, List.count_append]

/-- The lines of a text have all of its characters but line ends. -/
theorem count_join_lines (hFeed : c ≠ '\n') (hReturn : c ≠ '\r') (text : String) :
    (String.join (lines text)).toList.count c = text.toList.count c := by
  have hChars : (String.join (lines text)).toList =
      (linesOfPieces (cut '\n' text.toList)).flatten := by
    simp [lines, String.toList_join, List.flatMap_map, List.flatMap_id']
  rw [hChars, count_flatten_linesOfPieces hReturn, count_flatten_cut hFeed]

end PagePress.Text
