import PagePress.Json.Reader
import PagePress.Proofs.Address

/-!
# Quoted scalars

Front matter is YAML, and its lines with an address, a language or a collection hold the value
between double quotes. A reader of YAML ends such a scalar at the first quote that no escape has
taken, and a backslash starts an escape. Front matter is written with an escape for each quote and
none for anything else. So a value reads back when it has neither a backslash nor a control
character, whatever quotes it has. All other values do not: a character that may not stand for
itself takes at least two characters of the line, and only the quotes are given them.

## Main results

* `Scalar.length_of_read` — a scalar is longer than its value by the characters that need an escape.
* `Scalar.read_backslashQuotes_iff` — which values read back.
* `frontMatter_scalars` — the quoted lines of front matter, and which of them read back.
-/

namespace PagePress

namespace Scalar

/-! ## Reading -/

/-- Whether a quoted scalar may hold a character at all: a tab, or anything from the space on. -/
def isContent (c : Char) : Bool := c = '\t' || ' ' ≤ c

/-- Whether a character of a quoted scalar stands for itself. -/
def isLiteral (c : Char) : Bool := isContent c && c ≠ '"' && c ≠ '\\'

/-- The character that a backslash and one character stand for. -/
def shortEscape? : Char → Option Char
  | '0' => some '\x00'
  | 'a' => some '\x07'
  | 'b' => some '\x08'
  | 't' => some '\t'
  | '\t' => some '\t'
  | 'n' => some '\n'
  | 'v' => some '\x0b'
  | 'f' => some '\x0c'
  | 'r' => some '\r'
  | 'e' => some '\x1b'
  | ' ' => some ' '
  | '"' => some '"'
  | '/' => some '/'
  | '\\' => some '\\'
  | 'N' => some '\u0085'
  | '_' => some '\u00a0'
  | 'L' => some '\u2028'
  | 'P' => some '\u2029'
  | _ => none

/-- The character of a hexadecimal number. -/
def codePoint? (digits : List Char) : Option Char := do
  let values ← digits.mapM Json.hexValue?
  let number := values.foldl (fun sum value => 16 * sum + value) 0
  if number.isValidChar then some (Char.ofNat number) else none

/-- A value with one character more at its start. -/
def prepend (c : Option Char) (tail : Option (List Char × List Char)) :
    Option (List Char × List Char) := do
  let c ← c
  let (value, rest) ← tail
  return (c :: value, rest)

/-- The value of a double quoted scalar of one line, read behind its first quote, and what stands
behind its last one. -/
def read : List Char → Option (List Char × List Char)
  | [] => none
  | '"' :: rest => some ([], rest)
  | '\\' :: 'x' :: a :: b :: rest => prepend (codePoint? [a, b]) (read rest)
  | '\\' :: 'u' :: a :: b :: c :: d :: rest => prepend (codePoint? [a, b, c, d]) (read rest)
  | '\\' :: 'U' :: a :: b :: c :: d :: e :: f :: g :: h :: rest =>
    prepend (codePoint? [a, b, c, d, e, f, g, h]) (read rest)
  | '\\' :: c :: rest => prepend (shortEscape? c) (read rest)
  | c :: rest => if isLiteral c then prepend (some c) (read rest) else none

/-- The value of a line whose scalar ends at the end of the line. -/
def ofLine? (line : String) : Option String :=
  match read ((line.toList.dropWhile (· ≠ '"')).drop 1) with
  | some (value, []) => some (String.ofList value)
  | _ => none

theorem prepend_eq_some_iff {c : Option Char} {tail : Option (List Char × List Char)}
    {value rest : List Char} :
    prepend c tail = some (value, rest) ↔
      ∃ first others, c = some first ∧ tail = some (others, rest) ∧ value = first :: others := by
  cases c with
  | none => simp [prepend]
  | some first =>
      cases tail with
      | none => simp [prepend]
      | some pair =>
          obtain ⟨others, more⟩ := pair
          simp [prepend, eq_comm, and_comm]

theorem read_literal {c : Char} (h : isLiteral c = true) (rest : List Char) :
    read (c :: rest) = prepend (some c) (read rest) := by
  have hQuote : c ≠ '"' := by
    rintro rfl
    cases h
  have hBackslash : c ≠ '\\' := by
    rintro rfl
    cases h
  rw [read.eq_7, if_pos h]
  all_goals intros; contradiction

theorem read_escapedQuote (rest : List Char) :
    read ('\\' :: '"' :: rest) = prepend (some '"') (read rest) := by
  rw [read.eq_6]
  · rfl
  all_goals simp

/-! ## What a scalar costs -/

/-- The length of a value together with the characters that need an escape. -/
def cost (value : List Char) : Nat := value.length + value.countP fun c => !isLiteral c

theorem cost_cons_le (c : Char) (value : List Char) : cost (c :: value) ≤ cost value + 2 := by
  rw [cost, cost, List.length_cons, List.countP_cons]
  split <;> omega

theorem cost_cons_of_isLiteral {c : Char} (h : isLiteral c = true) (value : List Char) :
    cost (c :: value) = cost value + 1 := by
  rw [cost, cost, List.length_cons, List.countP_cons_of_neg (by simp [h])]
  omega

/-- An escape takes two characters or more, so it pays for any character. -/
theorem cost_of_prepend {c : Option Char} {tail : Option (List Char × List Char)}
    {value rest : List Char} {paid : Nat} (h : prepend c tail = some (value, rest))
    (hTail : ∀ others, tail = some (others, rest) → rest.length + cost others < paid) :
    rest.length + cost value < paid + 2 := by
  obtain ⟨first, others, -, hOthers, rfl⟩ := prepend_eq_some_iff.1 h
  have hPaid := hTail others hOthers
  have hFirst := cost_cons_le first others
  omega

/-- A scalar is longer than the cost of its value. -/
theorem length_of_read {text value rest : List Char} (h : read text = some (value, rest)) :
    rest.length + cost value < text.length := by
  induction text using read.induct generalizing value with
  | case1 => cases h
  | case2 rest =>
      cases h
      simp [cost]
  | case3 a b more ih =>
      have hCost := cost_of_prepend h fun _ => ih
      simp only [List.length_cons]
      omega
  | case4 a b c d more ih =>
      have hCost := cost_of_prepend h fun _ => ih
      simp only [List.length_cons]
      omega
  | case5 a b c d e f g i more ih =>
      have hCost := cost_of_prepend h fun _ => ih
      simp only [List.length_cons]
      omega
  | case6 c more hx hu hU ih =>
      rw [read.eq_6 c more hx hu hU] at h
      have hCost := cost_of_prepend h fun _ => ih
      simp only [List.length_cons]
      omega
  | case7 c more hQuote hx hu hU hShort hLiteral ih =>
      rw [read_literal hLiteral] at h
      obtain ⟨first, others, hFirst, hOthers, rfl⟩ := prepend_eq_some_iff.1 h
      cases hFirst
      have hTail := ih hOthers
      rw [cost_cons_of_isLiteral hLiteral, List.length_cons]
      omega
  | case8 c more hQuote hx hu hU hShort hLiteral =>
      rw [read.eq_7 c more hQuote hx hu hU hShort, if_neg hLiteral] at h
      cases h

/-! ## What is written -/

/-- A text with its quotes escaped reads back when all its characters but the quotes stand for
themselves. -/
theorem read_backslashQuotes {value : String}
    (h : ∀ c ∈ value.toList, c ≠ '\\' ∧ isContent c = true) (rest : List Char) :
    read ((Text.backslashQuotes value).toList ++ '"' :: rest) = some (value.toList, rest) := by
  rw [Text.backslashQuotes, Text.toList_replaceChars]
  revert h
  induction value.toList with
  | nil => exact fun _ => rfl
  | cons c cs ih =>
      intro h
      obtain ⟨⟨hBackslash, hContent⟩, hRest⟩ := List.forall_mem_cons.1 h
      rw [List.flatMap_cons, List.append_assoc]
      by_cases hQuote : c = '"'
      · rw [if_pos hQuote, hQuote, List.cons_append, List.singleton_append, read_escapedQuote,
          ih hRest]
        rfl
      · have hLiteral : isLiteral c = true := by simp [isLiteral, hContent, hQuote, hBackslash]
        rw [if_neg hQuote, List.singleton_append, read_literal hLiteral, ih hRest]
        rfl

theorem length_backslashQuotes (value : String) :
    (Text.backslashQuotes value).toList.length = value.toList.length + value.toList.count '"' := by
  rw [Text.backslashQuotes, Text.toList_replaceChars]
  induction value.toList with
  | nil => rfl
  | cons c cs ih =>
      rw [List.flatMap_cons, List.length_append, ih, List.length_cons]
      by_cases hQuote : c = '"'
      · rw [if_pos hQuote, hQuote, List.count_cons_self, List.length_cons, List.length_singleton]
        omega
      · rw [if_neg hQuote, List.count_cons_of_ne hQuote, List.length_singleton]
        omega

/-- Whether a character needs an escape that writing does not give it. -/
def needsOther (c : Char) : Bool := c = '\\' || !isContent c

theorem countP_not_isLiteral (cs : List Char) :
    cs.countP (fun c => !isLiteral c) = cs.count '"' + cs.countP needsOther := by
  induction cs with
  | nil => rfl
  | cons c cs ih =>
      rw [List.countP_cons, List.countP_cons, List.count_cons, ih]
      by_cases hQuote : c = '"'
      · rw [hQuote]
        have hMasks : (!isLiteral '"') = true ∧ needsOther '"' = false := by decide
        simp only [hMasks, beq_self_eq_true, Bool.false_eq_true, if_true, if_false]
        omega
      · have hSame : (!isLiteral c) = needsOther c := by
          simp [isLiteral, needsOther, hQuote, Bool.or_comm]
        simp only [hSame, beq_iff_eq, hQuote, if_false]
        omega

/-- A text with its quotes escaped reads back, up to the quote behind it, exactly when it has
neither a backslash nor a control character but the tab. -/
theorem read_backslashQuotes_iff (value : String) :
    read ((Text.backslashQuotes value).toList ++ ['"']) = some (value.toList, []) ↔
      ∀ c ∈ value.toList, c ≠ '\\' ∧ isContent c = true := by
  refine ⟨fun hRead => ?_, fun h => read_backslashQuotes h []⟩
  have hLength := length_of_read hRead
  rw [List.length_append, length_backslashQuotes, cost] at hLength
  rw [countP_not_isLiteral, List.length_nil, List.length_singleton] at hLength
  have hNone : value.toList.countP needsOther = 0 := by omega
  intro c hc
  simpa [needsOther] using List.countP_eq_zero.1 hNone c hc

/-! ## Lines -/

/-- The scalar of a line starts at its first quote. -/
theorem ofLine?_quotedLine {key : String} (hKey : '"' ∉ key.toList) (value : String) :
    ofLine? (FrontMatter.quotedLine key value) =
      match read ((Text.backslashQuotes value).toList ++ ['"']) with
      | some (text, []) => some (String.ofList text)
      | _ => none := by
  have hDrop : (FrontMatter.quotedLine key value).toList.dropWhile (· ≠ '"') =
      '"' :: ((Text.backslashQuotes value).toList ++ ['"']) := by
    have hChars : (FrontMatter.quotedLine key value).toList =
        (key.toList ++ [':', ' ']) ++ '"' :: ((Text.backslashQuotes value).toList ++ ['"']) := by
      simp [FrontMatter.quotedLine, String.toList_append]
    have hStart : ∀ c ∈ key.toList ++ [':', ' '], decide (c ≠ '"') = true := by
      simp only [List.forall_mem_append, List.forall_mem_cons, decide_eq_true_eq]
      exact ⟨fun c hc hQuote => hKey (hQuote ▸ hc), by decide, by decide, List.forall_mem_nil _⟩
    rw [hChars, List.dropWhile_append_of_pos hStart, List.dropWhile_cons_of_neg (by decide)]
  rw [ofLine?, hDrop, List.drop_one, List.tail_cons]

/-- A line with a quoted value reads back exactly when the value has neither a backslash nor a
control character but the tab. -/
theorem ofLine?_quotedLine_iff {key : String} (hKey : '"' ∉ key.toList) (value : String) :
    ofLine? (FrontMatter.quotedLine key value) = some value ↔
      ∀ c ∈ value.toList, c ≠ '\\' ∧ isContent c = true := by
  rw [ofLine?_quotedLine hKey, ← read_backslashQuotes_iff]
  constructor
  · intro h
    split at h
    · rename_i text hRead
      rw [hRead, ← Option.some.inj h, String.toList_ofList]
    · cases h
  · intro h
    rw [h]
    exact congrArg some String.ofList_toList

end Scalar

/-! ## Lines of front matter -/

namespace FrontMatter

/-- An entry is a line of the block that it was put into. -/
theorem mem_lines_block {line : String} {texts : List String} (hEntry : IsEntry line)
    (h : line ∈ texts) : line ∈ Text.lines (block texts) := by
  have hKept : line ∈ ("---" :: texts).filter fun line => !Text.isBlankText line :=
    List.mem_filter.2 ⟨List.mem_cons_of_mem _ h, by rw [isBlankText_of_colon hEntry.2]; rfl⟩
  obtain ⟨before, after, hSplit⟩ := List.append_of_mem hKept
  rw [block, hSplit, List.append_assoc, List.cons_append]
  exact Text.mem_lines_intercalate hEntry.1 (by simp) before

/-- The quoted values of front matter with their keys. -/
def quotedEntries (address lang collection : Option String) : List (String × String) :=
  address.toList.map ("permalink", ·) ++
    (lang.filter fun text => !text.isEmpty).toList.map ("lang", ·) ++
    (collection.filter fun text => !text.isEmpty).toList.map ("collection", ·)

theorem quotedLine?_eq (key : String) (value : Option String) :
    quotedLine? key value =
      (value.filter fun text => !text.isEmpty).toList.map (quotedLine key) := by
  cases value with
  | none => rfl
  | some text =>
      by_cases hEmpty : text.isEmpty = true
      · simp [quotedLine?, Option.filter, hEmpty]
      · simp [quotedLine?, Option.filter, hEmpty]

/-- Each quoted value has its line. -/
theorem map_quotedEntries (settings : PageSettings) (address lang collection : Option String) :
    addressLines address ++ otherLines settings collection lang =
      (quotedEntries address lang collection).map (fun entry => quotedLine entry.1 entry.2) ++
        navigationLines settings := by
  have hAddress : addressLines address = address.toList.map (quotedLine "permalink") := by
    cases address <;> rfl
  rw [otherLines, hAddress, quotedLine?_eq, quotedLine?_eq, quotedEntries]
  simp [Function.comp_def]

/-- The keys of quoted values. -/
theorem key_of_mem_quotedEntries {address lang collection : Option String}
    {entry : String × String} (h : entry ∈ quotedEntries address lang collection) :
    entry.1 ∈ ["permalink", "lang", "collection"] := by
  simp only [quotedEntries, List.mem_append, List.mem_map] at h
  rcases h with (⟨value, -, rfl⟩ | ⟨value, -, rfl⟩) | ⟨value, -, rfl⟩
  all_goals simp

end FrontMatter

open FrontMatter

/-- The quoted lines of front matter. A value of one line has its line, and the scalar of the line
ends with the line and is read as the value exactly when the value has neither a backslash nor a
control character but the tab. -/
theorem frontMatter_scalars {options : Options} {settings : PageSettings} {slug : String}
    {body : Element} {collection lang : Option String} {context next : Context} {header : String}
    (hRun : (frontMatter options settings slug body collection lang).runIn context =
      (.ok header, next)) :
    ∃ address, (permalink settings slug body).runIn context = (.ok address, next) ∧
      ∀ entry ∈ quotedEntries address lang collection, Text.isOneLine entry.2 = true →
        quotedLine entry.1 entry.2 ∈ Text.lines header ∧
          (Scalar.ofLine? (quotedLine entry.1 entry.2) = some entry.2 ↔
            ∀ c ∈ entry.2.toList, c ≠ '\\' ∧ Scalar.isContent c = true) := by
  obtain ⟨data, address, -, hAddress, rfl⟩ := frontMatter_lines hRun
  refine ⟨address, hAddress, ?_⟩
  intro entry hEntry hOne
  have hKeys : ∀ key ∈ ["permalink", "lang", "collection"],
      Text.isOneLine key = true ∧ '"' ∉ key.toList := by decide
  obtain ⟨hKey, hQuote⟩ := hKeys _ (key_of_mem_quotedEntries hEntry)
  refine ⟨mem_lines_block (isEntry_quotedLine hKey hOne) ?_, Scalar.ofLine?_quotedLine_iff hQuote _⟩
  rw [List.append_assoc, map_quotedEntries]
  exact List.mem_append_right _ (List.mem_append_left _ (List.mem_map_of_mem hEntry))

/-- A page name and a language with quotes, which read back. -/
theorem frontMatter_bestPage :
    ∃ header,
      (frontMatter {} {} "index" {} (some "My \"best\" page") (some "e\"n")).runIn
          (Context.start {} 0 []) = (.ok header, Context.start {} 0 []) ∧
        "collection: \"My \\\"best\\\" page\"" ∈ Text.lines header ∧
        Scalar.ofLine? "collection: \"My \\\"best\\\" page\"" = some "My \"best\" page" := by
  have hRun : (frontMatter {} {} "index" {} (some "My \"best\" page") (some "e\"n")).runIn
      (Context.start {} 0 []) = (.ok _, Context.start {} 0 []) := rfl
  obtain ⟨address, hAddress, hEntries⟩ := frontMatter_scalars hRun
  obtain ⟨hLine, hRead⟩ := hEntries ("collection", "My \"best\" page")
    (by simp [quotedEntries, Option.filter]) (by decide)
  have hPlain : "My \"best\" page".toList.all (fun c => decide (c ≠ '\\') && Scalar.isContent c) =
      true := by
    decide
  refine ⟨_, hRun, hLine, hRead.2 fun c hc => ?_⟩
  simpa using List.all_eq_true.1 hPlain c hc

/-- A backslash is written as it stands. Before a letter it makes another character of it, at the
end of a value it hides the last quote of the line, and before a quote the scalar ends too early. -/
theorem frontMatter_backslash_lost :
    (¬ ∀ (value header : String) (next : Context), Text.isOneLine value = true → value ≠ "" →
        (frontMatter {} {} "page-1" {} (some value) none).runIn (Context.start {} 0 []) =
          (.ok header, next) →
        ∃ line ∈ Text.lines header, "collection: ".toList.isPrefixOf line.toList = true ∧
          Scalar.ofLine? line = some value) ∧
      ["a\\b", "a\\", "a\\\"b"].map (fun value => Scalar.ofLine? (quotedLine "collection" value)) =
        [some "a\x08", none, none] := by
  refine ⟨fun h => ?_, by decide⟩
  exact absurd (h "a\\b" _ _ (by decide) (by decide) rfl) (by decide)

end PagePress
