/-!
# White space

The characters with the Unicode property `White_Space`, twenty-five in all, and trimming by
them. Settings, slugs, front matter and query payloads are all judged blank by this one table.

## Main results

* `trimEnd_append_blank` — trimming ignores blanks at the end.
-/

namespace PagePress.Text

/-- The ranges of the property `White_Space`, in ascending order. -/
def blankRanges : List (Nat × Nat) :=
  [(0x09, 0x0D), (0x20, 0x20), (0x85, 0x85), (0xA0, 0xA0), (0x1680, 0x1680), (0x2000, 0x200A),
   (0x2028, 0x2029), (0x202F, 0x202F), (0x205F, 0x205F), (0x3000, 0x3000)]

/-- Whether a character is white space. -/
def isBlank (c : Char) : Bool :=
  blankRanges.any fun range => range.1 ≤ c.toNat && c.toNat ≤ range.2

/-! ## Trimming -/

/-- Drops the blanks at the end. -/
def trimEnd (cs : List Char) : List Char :=
  (cs.reverse.dropWhile isBlank).reverse

/-- Drops the blanks at both ends. -/
def trimList (cs : List Char) : List Char :=
  trimEnd (cs.dropWhile isBlank)

/-- A text without the white space at its ends. -/
def trim (text : String) : String :=
  String.ofList (trimList text.toList)

/-- Whether a text has nothing but white space. -/
def isBlankText (text : String) : Bool :=
  text.toList.all isBlank

theorem trimEnd_append_blank {cs blanks : List Char} (h : ∀ c ∈ blanks, isBlank c = true) :
    trimEnd (cs ++ blanks) = trimEnd cs := by
  have hr : ∀ c ∈ blanks.reverse, isBlank c = true := fun c hc => h c (List.mem_reverse.1 hc)
  simp [trimEnd, List.reverse_append, List.dropWhile_append_of_pos hr]

end PagePress.Text
