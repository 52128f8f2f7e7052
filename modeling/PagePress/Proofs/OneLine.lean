import Mathlib.Algebra.GroupWithZero.Nat
import Mathlib.Tactic.SplitIfs
import PagePress.Proofs.Grammar
import PagePress.Proofs.Lines
import PagePress.Text.Lines

/-!
# Texts of one line

A statement is one line of a tag, and the short form of a block is one line of front matter. A
statement is put together from texts that a user has chosen, as they stand: ids, fixed values, and
options of filters that are strings. A line break in one of them is not escaped, so it is a line
break in the statement. Nothing else breaks a line: quoting adds no line break, and all JSON but a
string of its own is printed without.

## Main results

* `length_lines`, `lines_cons` — the lines of a text by its line feeds.
* `isOneLine_compact` — compact JSON is one line.
* `isOneLine_chainStatement` — a statement is one line when all texts that it shows are.
* `echo_isOneLine_iff` — so is the short form of a block, and its tag has a line for each statement.
-/

namespace PagePress

namespace Text

/-! ## Line breaks -/

/-- Whether a character breaks a line. -/
def isLineBreak (c : Char) : Bool := c = '\n' || c = '\r'

/-- Whether a text is one line. -/
def isOneLine (text : String) : Bool := text.toList.all fun c => !isLineBreak c

theorem isOneLine_append (a b : String) : isOneLine (a ++ b) = (isOneLine a && isOneLine b) := by
  simp [isOneLine]

theorem isOneLine_intercalate {separator : String} (hSeparator : isOneLine separator = true)
    (texts : List String) : isOneLine (separator.intercalate texts) = texts.all isOneLine := by
  induction texts with
  | nil => rfl
  | cons text rest ih =>
      cases rest with
      | nil => simp
      | cons next others =>
          rw [String.intercalate_cons_cons, isOneLine_append, isOneLine_append, hSeparator, ih]
          simp

/-- Replacing characters by texts without line breaks, but for the line breaks themselves. -/
theorem isOneLine_replaceChars {f : Char → List Char}
    (hf : ∀ c, (f c).all (fun d => !isLineBreak d) = !isLineBreak c) (text : String) :
    isOneLine (replaceChars f text) = isOneLine text := by
  simp only [isOneLine, toList_replaceChars, List.all_flatMap, hf]

/-- A text of characters that are no line breaks. -/
theorem isOneLine_of_forall {kept : Char → Prop} {text : String} (hFeed : ¬ kept '\n')
    (hReturn : ¬ kept '\r') (h : ∀ c ∈ text.toList, kept c) : isOneLine text = true := by
  rw [isOneLine, List.all_eq_true]
  intro c hc
  have hNe : c ≠ '\n' ∧ c ≠ '\r' :=
    ⟨fun hEq => hFeed (hEq ▸ h c hc), fun hEq => hReturn (hEq ▸ h c hc)⟩
  simp [isLineBreak, hNe]

theorem isDigit_of_mem_toString {number : Nat} {c : Char} (h : c ∈ (toString number).toList) :
    c.isDigit = true := by
  rw [Nat.toString_eq_repr, Nat.toList_repr] at h
  exact Nat.isDigit_of_mem_toDigits (by decide) (by decide) h

theorem isOneLine_toString (number : Nat) : isOneLine (toString number) = true :=
  isOneLine_of_forall (by decide) (by decide) fun _ hc => isDigit_of_mem_toString hc

theorem not_mem_of_isOneLine {text : String} (h : isOneLine text = true) :
    '\n' ∉ text.toList ∧ '\r' ∉ text.toList := by
  rw [isOneLine, List.all_eq_true] at h
  exact ⟨fun hm => absurd (h _ hm) (by decide), fun hm => absurd (h _ hm) (by decide)⟩

/-! ## Lines -/

/-- Before a last line with text, every line feed ends a line. -/
theorem length_linesOfPieces_cut {last : List Char} (hFeed : '\n' ∉ last) (hSome : last ≠ [])
    (cs : List Char) :
    (linesOfPieces (cut '\n' (cs ++ last))).length = cs.count '\n' + 1 := by
  induction cs with
  | nil =>
      have hText : last.isEmpty = false := by simpa using hSome
      rw [List.nil_append, cut_of_not_mem hFeed]
      simp [linesOfPieces, hText]
  | cons c cs ih =>
      rw [List.cons_append, cut]
      split
      · rename_i hEq
        rw [hEq, linesOfPieces_cons (cut_ne_nil _ _), List.length_cons, ih, List.count_cons_self]
      · rename_i hNe
        rw [List.count_cons_of_ne hNe, ← ih]
        cases hCut : cut '\n' (cs ++ last) with
        | nil => exact absurd hCut (cut_ne_nil _ _)
        | cons piece pieces =>
            cases pieces with
            | cons next others => rfl
            | nil =>
                cases piece with
                | cons d rest => rfl
                | nil =>
                    rw [hCut] at ih
                    cases ih

theorem length_lines (text : String) {last : String} (hFeed : '\n' ∉ last.toList)
    (hSome : last ≠ "") : (lines (text ++ last)).length = text.toList.count '\n' + 1 := by
  have hNe : last.toList ≠ [] := fun h => hSome (String.toList_eq_nil_iff.1 h)
  rw [lines, String.toList_append, List.length_map, length_linesOfPieces_cut hFeed hNe]

/-- The first line of a text. -/
theorem lines_cons {line : String} (h : isOneLine line = true) (rest : String) :
    lines (line ++ "\n" ++ rest) = line :: lines rest := by
  obtain ⟨hFeed, hReturn⟩ := not_mem_of_isOneLine h
  have hChars : (line ++ "\n" ++ rest).toList = line.toList ++ '\n' :: rest.toList := by
    simp [String.toList_append]
  rw [lines, hChars, linesOfPieces_cut_append hFeed, dropReturn_of_not_mem hReturn, List.map_cons,
    String.ofList_toList, lines]

theorem linesOfPieces_append {after : List (List Char)} (h : after ≠ [])
    (before : List (List Char)) :
    linesOfPieces (before ++ after) = before.map dropReturn ++ linesOfPieces after := by
  induction before with
  | nil => rfl
  | cons piece before ih =>
      rw [List.cons_append, linesOfPieces_cons (List.append_ne_nil_of_right_ne_nil _ h), ih]
      rfl

/-- The lines behind a line feed are lines of the whole text. -/
theorem mem_lines_append {line after : String} (h : line ∈ lines after) (before : String) :
    line ∈ lines (before ++ "\n" ++ after) := by
  have hChars : (before ++ "\n" ++ after).toList = before.toList ++ '\n' :: after.toList := by
    simp [String.toList_append]
  rw [lines, hChars, cut_append, linesOfPieces_append (cut_ne_nil _ _), List.map_append]
  exact List.mem_append_right _ h

/-- A text of one line that is joined to others by line feeds is a line of what they make, whatever
the others are, when one stands behind it. -/
theorem mem_lines_intercalate {line : String} (hLine : isOneLine line = true) {after : List String}
    (hAfter : after ≠ []) (before : List String) :
    line ∈ lines ("\n".intercalate (before ++ line :: after)) := by
  obtain ⟨next, others, rfl⟩ := List.exists_cons_of_ne_nil hAfter
  induction before with
  | nil =>
      rw [List.nil_append, String.intercalate_cons_cons, lines_cons hLine]
      exact List.mem_cons_self
  | cons text before ih =>
      obtain ⟨second, rest, hRest⟩ :=
        List.exists_cons_of_ne_nil (l := before ++ line :: next :: others) (by simp)
      rw [hRest] at ih
      rw [List.cons_append, hRest, String.intercalate_cons_cons]
      exact mem_lines_append ih text

end Text

/-! ## Numbers -/

namespace Decimal

/-- The characters of the text of a decimal. -/
def isNumeral (c : Char) : Bool := c.isDigit || c = '.' || c = 'e' || c = '+' || c = '-'

theorem isNumeral_of_isDigit {c : Char} (h : c.isDigit = true) : isNumeral c = true := by
  simp [isNumeral, h]

theorem isDigit_digits_shortest (x : Magnitude) : ∀ c ∈ x.shortest.digits, c.isDigit = true := by
  intro c hc
  rw [Magnitude.shortest] at hc
  cases hFound : (List.range 17).findSome? (fun k =>
      (x.interval.onGrid (x.point - (k + 1 : Nat))).gridPoint?.map
        (Digits.ofGridPoint · (x.point - (k + 1 : Nat)))) with
  | none =>
      simp only [hFound] at hc
      cases hc
  | some digits =>
      simp only [hFound] at hc
      obtain ⟨k, -, hSome⟩ := List.exists_of_findSome?_eq_some hFound
      obtain ⟨n, -, rfl⟩ := Option.map_eq_some_iff.1 hSome
      have hMem : c ∈ Nat.toDigits 10 n :=
        List.mem_reverse.1 ((List.dropWhile_sublist _).subset (List.mem_reverse.1 hc))
      exact Nat.isDigit_of_mem_toDigits (by decide) (by decide) hMem

theorem isNumeral_text_digits {d : Digits} (h : ∀ c ∈ d.digits, c.isDigit = true) :
    ∀ c ∈ d.text, isNumeral c = true := by
  have hDigits : ∀ c ∈ d.digits, isNumeral c = true := fun c hc => isNumeral_of_isDigit (h c hc)
  have hZeros : ∀ n, ∀ c ∈ List.replicate n '0', isNumeral c = true := by
    intro n c hc
    rw [List.eq_of_mem_replicate hc]
    rfl
  rw [Digits.text]
  split
  · split
    · simp only [List.forall_mem_cons, List.forall_mem_append]
      exact ⟨rfl, rfl, hZeros _, hDigits⟩
    · dsimp only
      split
      · simp only [List.forall_mem_cons, List.forall_mem_append]
        exact ⟨⟨hDigits, hZeros _⟩, rfl, rfl, by simp⟩
      · simp only [List.forall_mem_cons, List.forall_mem_append]
        exact ⟨fun c hc => hDigits c (List.mem_of_mem_take hc), rfl,
          fun c hc => hDigits c (List.mem_of_mem_drop hc)⟩
  · simp only [List.forall_mem_cons, List.forall_mem_append]
    refine ⟨?_, rfl, ?_, ?_⟩
    · cases hSplit : d.digits with
      | nil => simp
      | cons digit rest =>
          rw [hSplit] at hDigits
          obtain ⟨hFirst, hRest⟩ := List.forall_mem_cons.1 hDigits
          cases rest with
          | nil => simpa using hFirst
          | cons next others =>
              simp only [List.forall_mem_cons]
              exact ⟨hFirst, rfl, List.forall_mem_cons.1 hRest⟩
    · split <;> rfl
    · intro c hc
      exact isNumeral_of_isDigit (Nat.isDigit_of_mem_toDigits (by decide) (by decide) hc)

theorem isNumeral_text (negative : Bool) (x : Magnitude) :
    ∀ c ∈ (x.text negative).toList, isNumeral c = true := by
  rw [Magnitude.text, String.toList_ofList, List.forall_mem_append]
  constructor
  · cases negative <;> simp [isNumeral]
  · split
    · simp [isNumeral]
    · exact isNumeral_text_digits (isDigit_digits_shortest x)

end Decimal

namespace Json
open Text

theorem isOneLine_numberText (number : Number) : isOneLine number.text = true := by
  cases number with
  | whole value =>
      cases value with
      | ofNat n => exact isOneLine_toString n
      | negSucc n =>
          have hText : toString (Int.negSucc n) = "-" ++ toString (n + 1) := rfl
          rw [Number.text, hText, isOneLine_append, isOneLine_toString]
          rfl
  | double negative magnitude =>
      exact isOneLine_of_forall (by decide) (by decide) (Decimal.isNumeral_text negative magnitude)

/-- Line breaks are escaped in a printed string. -/
theorem isOneLine_quoted (text : String) : isOneLine (quoted text) = true := by
  have hChar : ∀ c, (stringChar c).all (fun d => !isLineBreak d) = true := by
    intro c
    have hHex : ∀ n < 16, isLineBreak (hexChar n) = false := by decide
    unfold stringChar
    split_ifs with _ _ _ _ hFeed _ hReturn
    any_goals decide
    · have hFirst := hHex (c.toNat / 16) (by omega)
      have hSecond := hHex (c.toNat % 16) (by omega)
      have hStart : ['\\', 'u', '0', '0'].all (fun d => !isLineBreak d) = true := by decide
      simpa [hFirst, hSecond] using hStart
    · simp [isLineBreak, hFeed, hReturn]
  have hText : isOneLine (replaceChars stringChar text) = true := by
    rw [isOneLine, toList_replaceChars, List.all_flatMap]
    simp [hChar]
  rw [quoted, isOneLine_append, isOneLine_append, hText]
  rfl

mutual

/-- Compact JSON is one line. -/
theorem isOneLine_compact (json : Json) : isOneLine json.compact = true := by
  match json with
  | .null => rfl
  | .bool true => rfl
  | .bool false => rfl
  | .number value => exact isOneLine_numberText value
  | .string text => exact isOneLine_quoted text
  | .array items =>
      rw [compact, isOneLine_append, isOneLine_append, isOneLine_intercalate rfl,
        isOneLine_compactItems items]
      rfl
  | .object members =>
      rw [compact, isOneLine_append, isOneLine_append, isOneLine_intercalate rfl,
        isOneLine_compactMembers members]
      rfl
  | .unreadable _ =>
      rw [compact]
      rfl

theorem isOneLine_compactItems (items : List Json) :
    (compactItems items).all isOneLine = true := by
  match items with
  | [] => rfl
  | item :: items =>
      rw [compactItems, List.all_cons, isOneLine_compact item, isOneLine_compactItems items]
      rfl

theorem isOneLine_compactMembers (members : List (String × Json)) :
    (compactMembers members).all isOneLine = true := by
  match members with
  | [] => rfl
  | (name, value) :: members =>
      rw [compactMembers, List.all_cons, isOneLine_append, isOneLine_append, isOneLine_quoted,
        isOneLine_compact value, isOneLine_compactMembers members]
      rfl

end

/-- The text of a value that is a string. -/
def Value.string? (value : Value) : Option String :=
  match value.json with
  | .string text => some text
  | _ => none

/-- Only a string can bring a line break with it. -/
theorem isOneLine_valueText (value : Value) :
    isOneLine value.text = value.string?.all isOneLine := by
  obtain ⟨json, hNormal⟩ := value
  cases json with
  | string text => rfl
  | null => rfl
  | bool b => exact isOneLine_compact _
  | number n => exact isOneLine_compact _
  | array items => exact isOneLine_compact _
  | object members => exact isOneLine_compact _
  | unreadable error => exact isOneLine_compact _

end Json

/-! ## Texts that a statement shows -/

/-- The text of a property that its statement shows as it stands, if there is one. -/
def Property.shownText? (p : Property) : Option String :=
  if p.isFixed then (p.options.bind fun options => options.get? "value").bind Json.Value.string?
  else some p.fieldId

/-- The texts of a token that its statement shows as they stand. -/
def Token.shownTexts : Token → List String
  | .property p => p.shownText?.toList
  | .state s => [s.componentId, s.storedStateId]
  | .filter f => f.id :: f.options.values.filterMap Json.Value.string?

/-- The texts that the statement of an expression shows as they stand. -/
def Expression.shownTexts (globalSources : List String) (expression : Expression) : List String :=
  expression.receiver globalSources :: expression.flatMap Token.shownTexts

/-! ## Statements -/

open Text

theorem isOneLine_variableName (elementId : String) (number : Nat) :
    isOneLine (variableName elementId number) = isOneLine elementId := by
  have hStart : isOneLine "var_" = true := rfl
  have hJoin : isOneLine "_" = true := rfl
  simp only [variableName, isOneLine_append, isOneLine_toString, hStart, hJoin, Bool.true_and,
    Bool.and_true]

theorem isOneLine_stateVariable (persistentId stateId : String) :
    isOneLine (stateVariable persistentId stateId) =
      (isOneLine persistentId && isOneLine stateId) := by
  have hStart : isOneLine "state_" = true := rfl
  have hJoin : isOneLine "_" = true := rfl
  simp only [stateVariable, isOneLine_append, hStart, hJoin, Bool.true_and, Bool.and_true]

namespace Expression

/-- Quoting neither adds a line break nor takes one away. -/
theorem isOneLine_quote (text : String) : isOneLine (quote text) = isOneLine text := by
  have hSingle : isOneLine "'" = true := rfl
  have hDouble : isOneLine "\"" = true := rfl
  have hEscaped : isOneLine (escapeDoubleQuotes text) = isOneLine text := by
    refine isOneLine_replaceChars (fun c => ?_) text
    split
    · rename_i hQuote
      subst hQuote
      decide
    · simp
  unfold quote
  split <;> simp only [isOneLine_append, hEscaped, hSingle, hDouble, Bool.true_and, Bool.and_true]

theorem isOneLine_propertyStep (p : Property) :
    isOneLine (propertyStep p) = p.shownText?.all isOneLine := by
  unfold propertyStep Property.shownText?
  split
  · rw [isOneLine_quote, Property.fixedText]
    cases p.options.bind fun options => options.get? "value" with
    | none => rfl
    | some value => exact Json.isOneLine_valueText value
  · rfl

theorem isOneLine_headStep {head : Token} (hHead : head.isFilter = false) :
    isOneLine (headStep head) = head.shownTexts.all isOneLine := by
  cases head with
  | filter f => cases hHead
  | state s =>
      rw [headStep, isOneLine_stateVariable]
      simp [Token.shownTexts]
  | property p =>
      rw [headStep, isOneLine_propertyStep, Token.shownTexts]
      cases p.shownText? <;> simp

theorem isOneLine_filterCall (f : Filter) :
    isOneLine (filterCall f) = (Token.filter f).shownTexts.all isOneLine := by
  have hColon : isOneLine ": " = true := rfl
  have hValues : (f.options.values.map Json.Value.text).all isOneLine =
      (f.options.values.filterMap Json.Value.string?).all isOneLine := by
    rw [List.all_map, List.all_filterMap]
    congr 1
    funext value
    rw [Function.comp_apply, Json.isOneLine_valueText]
    cases value.string? <;> rfl
  unfold filterCall
  split
  · rename_i hEmpty
    have hNone : f.options.values = [] := by
      rw [OrderedMap.values, List.isEmpty_iff.1 hEmpty, List.map_nil]
    simp [Token.shownTexts, hNone]
  · rw [isOneLine_append, isOneLine_append, hColon, isOneLine_intercalate rfl, hValues,
      Token.shownTexts, List.all_cons, Bool.and_true]

theorem isOneLine_filterChain (filters : List Filter) :
    isOneLine (filterChain filters) =
      ((filters.map Token.filter).flatMap Token.shownTexts).all isOneLine := by
  have hBar : isOneLine " | " = true := rfl
  have hCalls : (filters.map filterCall).all isOneLine =
      ((filters.map Token.filter).flatMap Token.shownTexts).all isOneLine := by
    rw [List.all_flatMap, List.all_map, List.all_map]
    congr 1
    funext f
    exact isOneLine_filterCall f
  rw [← hCalls]
  cases filters with
  | nil => rfl
  | cons f rest =>
      rw [filterChain, isOneLine_append, isOneLine_intercalate hBar, hBar, Bool.true_and]
      exact fun h => List.cons_ne_nil _ _ h

theorem isOneLine_receiverPrefix (receiver : String) :
    isOneLine (receiverPrefix receiver) = isOneLine receiver := by
  unfold receiverPrefix
  split
  · rename_i hEmpty
    rw [String.isEmpty_iff.1 hEmpty]
  · rw [isOneLine_append]
    exact Bool.and_true _

/-- A statement is one line when all texts that it shows are. -/
theorem isOneLine_chainStatement {head : Token} (hHead : head.isFilter = false)
    (path : List Property) (filters : List Filter) {variableName : String}
    (hVariable : isOneLine variableName = true) (globalSources : List String) :
    isOneLine (chainStatement head path filters variableName
        (receiver globalSources (chain head path filters))) =
      ((chain head path filters).shownTexts globalSources).all isOneLine := by
  have hAssign : isOneLine "assign " = true := rfl
  have hEquals : isOneLine " = " = true := rfl
  have hPath : (path.map propertyStep).all isOneLine =
      ((path.map Token.property).flatMap Token.shownTexts).all isOneLine := by
    rw [List.all_flatMap, List.all_map, List.all_map]
    congr 1
    funext p
    exact isOneLine_headStep (show (Token.property p).isFilter = false from rfl)
  have hDot : isOneLine "." = true := rfl
  simp only [chainStatement, isOneLine_append, hAssign, hEquals, hVariable, Bool.true_and,
    isOneLine_receiverPrefix, isOneLine_intercalate hDot, List.all_cons, isOneLine_headStep hHead,
    hPath, isOneLine_filterChain, shownTexts, List.all_flatMap]
  simp only [chain, List.all_cons, List.all_append, Bool.and_assoc]

end Expression

/-! ## Blocks -/

/-- A tag has its first line, its last one and a line for each statement, and one more for each line
feed in a statement. -/
theorem length_lines_liquidTag (statements : List String) :
    (lines (Block.liquidTag statements)).length =
      statements.length + 2 + (statements.map fun text => text.toList.count '\n').sum := by
  have hLines : (String.join (statements.map (LineBuffer.wholeLine "  " 1))).toList.count '\n' =
      statements.length + (statements.map fun text => text.toList.count '\n').sum := by
    induction statements with
    | nil => rfl
    | cons text rest ih =>
        have hText : (LineBuffer.wholeLine "  " 1 text).toList.count '\n' =
            text.toList.count '\n' + 1 := by
          unfold LineBuffer.wholeLine
          split
          · rename_i hEmpty
            rw [String.isEmpty_iff.1 hEmpty]
            rfl
          · simp [LineBuffer.repeated, String.toList_append]
        rw [List.map_cons, String.join_cons, String.toList_append, List.count_append, hText, ih,
          List.map_cons, List.sum_cons, List.length_cons]
        omega
  have hLast : '\n' ∉ "%\x7d".toList := by decide
  rw [Block.liquidTag_eq, length_lines _ hLast (by decide), String.toList_append,
    List.count_append, hLines]
  have hFirst : "\x7b% liquid\n".toList.count '\n' = 1 := by decide
  rw [hFirst]
  omega

theorem count_of_isOneLine {text : String} (h : isOneLine text = true) :
    text.toList.count '\n' = 0 :=
  List.count_eq_zero.2 (not_mem_of_isOneLine h).1

section

variable {element : Element} {expression : Expression} {context next : Context}
  {statement : Statement}

theorem run_echoInline
    (hRun : (assignment element expression).runIn context = (.ok statement, next)) :
    (Block.echoInline element expression).runIn context =
      (.ok (Block.tag statement.source ++ "\x7b\x7b " ++ statement.variableName ++ " \x7d\x7d"),
        next) := by
  rw [Block.echoInline, Pass.runIn_bind_of_ok hRun]
  rfl

theorem run_echo
    (hRun : (assignment element expression).runIn context = (.ok statement, next)) :
    (Block.echo element expression).runIn context =
      (.ok (Block.liquidTag [statement.source, "echo " ++ statement.variableName]), next) := by
  rw [Block.echo, Pass.runIn_bind_of_ok hRun]
  rfl

end

/-- An expression of good grammar compiles to a statement in one line exactly when all texts that it
shows are one line. The short block is one line when the statement is, and the tag of the long one
has four lines and one more for each line feed in the statement. -/
theorem echo_isOneLine_iff {element : Element} (hId : isOneLine element.id = true)
    {expression : Expression} (hCheck : expression.check = .ok ()) (context : Context) :
    ∃ statement next, (assignment element expression).runIn context = (.ok statement, next) ∧
      (isOneLine statement.source = true ↔
        ∀ text ∈ expression.shownTexts context.globalSources, isOneLine text = true) ∧
      (∃ line, (Block.echoInline element expression).runIn context = (.ok line, next) ∧
        isOneLine line = isOneLine statement.source) ∧
      ∃ block, (Block.echo element expression).runIn context = (.ok block, next) ∧
        (lines block).length = statement.source.toList.count '\n' + 4 := by
  obtain ⟨head, path, filters, hHead, rfl⟩ := (Expression.check_eq_ok_iff _).1 hCheck
  have hRun := run_assignment_of_ok element hHead path filters context
  have hVariable : isOneLine (variableName element.id context.nextVariable) = true :=
    (isOneLine_variableName _ _).trans hId
  refine ⟨_, _, hRun, ?_, ⟨_, run_echoInline hRun, ?_⟩, ⟨_, run_echo hRun, ?_⟩⟩
  · rw [Expression.isOneLine_chainStatement hHead path filters hVariable, List.all_eq_true]
  · have hOpening : isOneLine "\x7b% " = true := rfl
    have hClosing : isOneLine " %\x7d" = true := rfl
    have hBraces : isOneLine "\x7b\x7b " = true ∧ isOneLine " \x7d\x7d" = true := ⟨rfl, rfl⟩
    simp only [Block.tag, isOneLine_append, hVariable, hOpening, hClosing, hBraces, Bool.true_and,
      Bool.and_true]
  · have hEcho : isOneLine ("echo " ++ variableName element.id context.nextVariable) = true := by
      rw [isOneLine_append, hVariable]
      rfl
    rw [length_lines_liquidTag]
    simp only [List.map_cons, List.map_nil, List.sum_cons, List.sum_nil, List.length_cons,
      List.length_nil, count_of_isOneLine hEcho]
    omega

/-- A fixed value with a text. -/
def literal (text : String) : Token :=
  .property ⟨fixedId, "", none, [], .scalar, some (.ofList [("value", .string text)])⟩

/-- A fixed value with quotes, and a filter with options that are a text and a list. -/
def joinedLiteral : Expression :=
  [literal "a \"b\"",
    .filter ⟨"join", "", .ofList [("by", .string ", "), ("rest", ⟨.array [.null], by decide⟩)]⟩]

/-- Its texts are one line each, so it compiles to one line and a tag of four. -/
theorem joinedLiteral_isOneLine :
    isOneLine "c1" = true ∧ joinedLiteral.check = .ok () ∧
      ∃ line block next,
        (Block.echoInline { id := "c1" } joinedLiteral).runIn (Context.start {} 0 []) =
          (.ok line, next) ∧ isOneLine line = true ∧
        (Block.echo { id := "c1" } joinedLiteral).runIn (Context.start {} 0 []) =
          (.ok block, next) ∧ (lines block).length = 4 := by
  have hId : isOneLine ({ id := "c1" } : Element).id = true := by decide
  obtain ⟨statement, next, -, hSource, ⟨line, hInline, hLine⟩, block, hEcho, hLines⟩ :=
    echo_isOneLine_iff hId (show joinedLiteral.check = .ok () from rfl) (Context.start {} 0 [])
  have hOneLine : isOneLine statement.source = true := hSource.2 (by decide)
  rw [count_of_isOneLine hOneLine] at hLines
  exact ⟨hId, rfl, line, block, next, hInline, hLine.trans hOneLine, hEcho, hLines⟩

/-- A fixed value of two lines breaks its statement. -/
theorem statement_not_isOneLine :
    ¬ ∀ (context next : Context) (element : Element) (expression : Expression)
        (statement : Statement), isOneLine element.id = true → expression.check = .ok () →
      (assignment element expression).runIn context = (.ok statement, next) →
      isOneLine statement.source = true := by
  intro h
  have hRun := run_assignment_of_ok { id := "c1" }
    (show (literal "a\nb").isFilter = false from rfl) [] [] (Context.start {} 0 [])
  exact absurd (h _ _ _ _ _ (by decide) rfl hRun) (by decide +kernel)

end PagePress
