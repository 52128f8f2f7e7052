import PagePress.Proofs.Grammar
import PagePress.Proofs.Lines
import PagePress.Proofs.Nesting.Tags
import PagePress.Proofs.Numbering.Pattern
import PagePress.Proofs.Trees

/-!
# Texts of a tree in its markup

The texts of a tree go into its markup as content, as names and values of attributes, and as parts
of statements. When none of them has a percent sign, none of what is built from them does, but for
the tags themselves. Which tag that is, its first word tells.

## Main results

* `assignment_returns` — the statement of plain tokens is plain.
* `silent_liquidTag` — the tag around statements is no tag of a block.
* `reads_tag` — a tag whose first word is followed by others.
-/

namespace PagePress

/-! ## Texts of a tree -/

/-- The texts of a token that its statement may show. -/
def Token.texts : Token → List String
  | .property p => p.fieldId :: p.fixedText :: p.dataSourceId.toList
  | .state s => [s.componentId, s.storedStateId]
  | .filter f => f.id :: f.options.values.map Json.Value.text

/-- The texts of a binding. -/
def StoredState.texts (s : StoredState) : List String :=
  s.id :: s.labelText :: s.expression.flatMap Token.texts

/-- The text of a static value, unless it is a flag. -/
def AttributeValue.texts : AttributeValue → List String
  | .flag _ => []
  | .text value => [value]

/-- The texts of an element: its own, those of its attributes and those of its bindings. -/
def Element.texts (e : Element) : List String :=
  e.id :: e.content :: (e.persistentId.toList ++ e.tagName.toList ++ e.classes) ++
    e.attributes.entries.flatMap (fun entry => entry.1 :: entry.2.texts) ++
    (e.privateStates ++ e.publicStates).flatMap StoredState.texts

/-- The texts of all elements of a tree. -/
def Component.texts (tree : Component) : List String :=
  tree.postorder.flatMap fun component => component.element.texts

namespace Nesting

open Pass (Returns)

/-! ## Plain texts -/

theorem isPlain_variableName {elementId : String} (h : IsPlain elementId) (n : Nat) :
    IsPlain (variableName elementId n) := by
  have hStart : IsPlain "var_" := by decide
  exact ((hStart.append h).append (by decide)).append (not_mem_toString (by decide) n)

theorem isPlain_stateVariable {persistentId stateId : String} (hPersistent : IsPlain persistentId)
    (hState : IsPlain stateId) : IsPlain (stateVariable persistentId stateId) := by
  have hStart : IsPlain "state_" := by decide
  exact ((hStart.append hPersistent).append (by decide)).append hState

theorem isPlain_replaceChars {f : Char → List Char} (hf : ∀ c, c ≠ '%' → '%' ∉ f c)
    {text : String} (h : IsPlain text) : IsPlain (Text.replaceChars f text) := by
  intro hm
  rw [Text.toList_replaceChars] at hm
  obtain ⟨c, hc, hFound⟩ := List.mem_flatMap.1 hm
  exact hf c (fun hEq => h (hEq ▸ hc)) hFound

theorem isPlain_quote {text : String} (h : IsPlain text) : IsPlain (Expression.quote text) := by
  have hEscaped : IsPlain (Text.escapeDoubleQuotes text) := by
    refine isPlain_replaceChars (fun c hc => ?_) h
    split
    · decide
    · simpa using Ne.symm hc
  have hSingle : IsPlain "'" := by decide
  have hDouble : IsPlain "\"" := by decide
  unfold Expression.quote
  split
  · exact (hSingle.append h).append hSingle
  · exact (hDouble.append hEscaped).append hDouble
  · exact (hDouble.append h).append hDouble

/-- No capital letter has the percent sign as its small letter. -/
theorem eq_of_toLower_eq_percent {c : Char} (h : c.toLower = '%') : c = '%' := by
  unfold Char.toLower at h
  split at h
  · rename_i hUpper
    have hFirst : 65 ≤ c.val.toNat := UInt32.le_iff_toNat_le.1 hUpper.1
    have hLast : c.val.toNat ≤ 90 := UInt32.le_iff_toNat_le.1 hUpper.2
    have hSum := congrArg UInt32.toNat
      (show c.val + ('a'.val - 'A'.val) = '%'.val from congrArg Char.val h)
    rw [UInt32.toNat_add] at hSum
    have hOffset : ('a'.val - 'A'.val).toNat = 32 := by decide
    have hPercent : '%'.val.toNat = 37 := by decide
    omega
  · exact h

theorem isPlain_toLower {tag : String} (h : IsPlain tag) : IsPlain (tag.map Char.toLower) := by
  intro hm
  rw [String.toList_map] at hm
  obtain ⟨c, hc, hLower⟩ := List.mem_map.1 hm
  exact h (eq_of_toLower_eq_percent hLower ▸ hc)

theorem isPlain_intercalate {separator : String} (hSeparator : IsPlain separator)
    {texts : List String} (h : ∀ text ∈ texts, IsPlain text) :
    IsPlain (separator.intercalate texts) :=
  intercalate_induction (by decide) (fun _ _ => IsPlain.append) hSeparator h

/-! ## Plain statements -/

/-- A token has plain texts only. -/
def PlainToken (token : Token) : Prop := ∀ text ∈ token.texts, IsPlain text

theorem isPlain_propertyStep {p : Property} (h : PlainToken (.property p)) :
    IsPlain (Expression.propertyStep p) := by
  unfold Expression.propertyStep
  split
  · exact isPlain_quote (h p.fixedText (by simp [Token.texts]))
  · exact h p.fieldId (by simp [Token.texts])

theorem isPlain_headStep {head : Token} (h : PlainToken head) :
    IsPlain (Expression.headStep head) := by
  cases head with
  | state s =>
      exact isPlain_stateVariable (h _ (by simp [Token.texts])) (h _ (by simp [Token.texts]))
  | property p => exact isPlain_propertyStep h
  | filter f =>
      show IsPlain ""
      decide

theorem isPlain_filterCall {f : Filter} (h : PlainToken (.filter f)) :
    IsPlain (Expression.filterCall f) := by
  have hId : IsPlain f.id := h f.id List.mem_cons_self
  unfold Expression.filterCall
  split
  · exact hId
  · exact (hId.append (by decide)).append (isPlain_intercalate (by decide) fun text hm =>
      h text (List.mem_cons_of_mem _ hm))

theorem isPlain_filterChain {filters : List Filter} (h : ∀ f ∈ filters, PlainToken (.filter f)) :
    IsPlain (Expression.filterChain filters) := by
  have hBar : IsPlain " | " := by decide
  cases filters with
  | nil => decide
  | cons f rest =>
      refine hBar.append (isPlain_intercalate hBar fun text hm => ?_)
      obtain ⟨g, hg, rfl⟩ := List.mem_map.1 hm
      exact isPlain_filterCall (h g hg)

theorem isPlain_receiver (globalSources : List String) {head : Token} (h : PlainToken head)
    (rest : Expression) : IsPlain (Expression.receiver globalSources (head :: rest)) := by
  unfold Expression.receiver
  cases hSource : Expression.source? globalSources (head :: rest) with
  | none =>
      show IsPlain ""
      decide
  | some source =>
      cases head with
      | filter f => cases hSource
      | state s => cases hSource
      | property p =>
          refine h source ?_
          by_cases hFixed : p.isFixed = true
          · simp [Expression.source?, hFixed] at hSource
          · simp [Expression.source?, hFixed, Option.filter_eq_some_iff] at hSource
            simp [Token.texts, hSource.1]

theorem isPlain_chainStatement {head : Token} {path : List Property} {filters : List Filter}
    (h : ∀ token ∈ Expression.chain head path filters, PlainToken token)
    {variableName receiver : String} (hVariable : IsPlain variableName)
    (hReceiver : IsPlain receiver) :
    IsPlain (Expression.chainStatement head path filters variableName receiver) := by
  have hPrefix : IsPlain (Expression.receiverPrefix receiver) := by
    unfold Expression.receiverPrefix
    split
    · decide
    · exact hReceiver.append (by decide)
  have hSteps : IsPlain
      (".".intercalate (Expression.headStep head :: path.map Expression.propertyStep)) := by
    refine isPlain_intercalate (by decide) fun text hm => ?_
    rcases List.mem_cons.1 hm with rfl | hm
    · exact isPlain_headStep (h head List.mem_cons_self)
    · obtain ⟨p, hp, rfl⟩ := List.mem_map.1 hm
      exact isPlain_propertyStep (h _ (by simp [Expression.chain, hp]))
  have hFilters : IsPlain (Expression.filterChain filters) :=
    isPlain_filterChain fun f hf => h _ (by simp [Expression.chain, hf])
  have hAssign : IsPlain "assign " := by decide
  exact ((((hAssign.append hVariable).append (by decide)).append hPrefix).append hSteps).append
    hFilters

/-- The statement of plain tokens and the variable of an element with a plain id are plain. -/
theorem assignment_returns {element : Element} (hId : IsPlain element.id)
    {expression : Expression} (h : ∀ token ∈ expression, PlainToken token) :
    Returns (fun statement => IsPlain statement.variableName ∧ IsPlain statement.source)
      (assignment element expression) := by
  intro context statement next hRun
  cases hCheck : expression.check with
  | error error =>
      rw [run_assignment_of_error element hCheck] at hRun
      cases hRun
  | ok _ =>
      obtain ⟨head, path, filters, hHead, rfl⟩ := (Expression.check_eq_ok_iff _).1 hCheck
      rw [run_assignment_of_ok element hHead] at hRun
      cases hRun
      have hName := isPlain_variableName hId context.nextVariable
      exact ⟨hName, isPlain_chainStatement h hName
        (isPlain_receiver context.globalSources (h head List.mem_cons_self) _)⟩

/-! ## Tags by their first words -/

theorem tagName_eq {word : String} (hWord : word.toList.all (!Text.isBlank ·) = true)
    (hSome : word ≠ "") {separator : Char} (hSeparator : Text.isBlank separator = true)
    (rest : List Char) : tagName (' ' :: (word.toList ++ separator :: rest)) = word := by
  have hChars : ∀ c ∈ word.toList, (!Text.isBlank c) = true := List.all_eq_true.1 hWord
  have hDrop : (' ' :: (word.toList ++ separator :: rest)).dropWhile Text.isBlank =
      word.toList ++ separator :: rest := by
    cases hList : word.toList with
    | nil => exact absurd (String.toList_eq_nil_iff.1 hList) hSome
    | cons c cs =>
        have hFirst := hChars c (by rw [hList]; exact List.mem_cons_self)
        rw [List.dropWhile_cons_of_pos (by decide), List.cons_append,
          List.dropWhile_cons_of_neg (by simpa using hFirst)]
  rw [tagName, hDrop, List.takeWhile_append_of_pos hChars,
    List.takeWhile_cons_of_neg (by simp [hSeparator]), List.append_nil, String.ofList_toList]

/-- The first word of a tag, with a blank after it, says which tag it is. -/
theorem reads_word {word rest : String} (hWord : word.toList.all (!Text.isBlank ·) = true)
    (hSome : word ≠ "") (separator : Char) (hSeparator : Text.isBlank separator = true)
    (after : List Char) (hRest : rest.toList = separator :: after)
    (hPlain : IsPlain (" " ++ word ++ rest)) :
    Reads ("\x7b%" ++ (" " ++ word ++ rest) ++ "%\x7d") (BlockTag.named? word).toList := by
  have hContent : (" " ++ word ++ rest).toList = ' ' :: (word.toList ++ separator :: after) := by
    simp [String.toList_append, hRest]
  have hTag := Reads.tag hPlain
  rwa [hContent, tagName_eq hWord hSome hSeparator] at hTag

/-- A tag of one word. -/
theorem reads_name (word : String) (hWord : word.toList.all (!Text.isBlank ·) = true)
    (hSome : word ≠ "") (hPlain : IsPlain word) :
    Reads (Block.tag word) (BlockTag.named? word).toList := by
  have hBlank : IsPlain " " := by decide
  have hText : Block.tag word = "\x7b%" ++ (" " ++ word ++ " ") ++ "%\x7d" := by
    simp [Block.tag, ← String.toList_inj, String.toList_append]
  rw [hText]
  exact reads_word hWord hSome ' ' (by decide) [] rfl ((hBlank.append hPlain).append hBlank)

/-- A tag that starts with a word and a blank. -/
theorem reads_tag (word : String) (hWord : word.toList.all (!Text.isBlank ·) = true)
    (hSome : word ≠ "") (hPlain : IsPlain word) {start : String} (hStart : start = word ++ " ")
    {rest : String} (hRest : IsPlain rest) :
    Reads (Block.tag (start ++ rest)) (BlockTag.named? word).toList := by
  subst hStart
  have hBlank : IsPlain " " := by decide
  have hText : Block.tag (word ++ " " ++ rest) =
      "\x7b%" ++ (" " ++ word ++ (" " ++ rest ++ " ")) ++ "%\x7d" := by
    simp [Block.tag, ← String.toList_inj, String.toList_append]
  rw [hText]
  exact reads_word hWord hSome ' ' (by decide) (rest ++ " ").toList
    (by simp [String.toList_append])
    ((hBlank.append hPlain).append ((hBlank.append hRest).append hBlank))

theorem isPlain_wholeLine {text : String} (h : IsPlain text) :
    IsPlain (LineBuffer.wholeLine "  " 1 text) := by
  have hIndent : IsPlain (LineBuffer.repeated "  " 1) := by decide
  unfold LineBuffer.wholeLine
  split
  · decide
  · exact (hIndent.append h).append (by decide)

theorem isPlain_join {texts : List String} (h : ∀ text ∈ texts, IsPlain text) :
    IsPlain (String.join texts) := by
  intro hm
  rw [String.toList_join] at hm
  obtain ⟨text, hText, hFound⟩ := List.mem_flatMap.1 hm
  exact h text hText hFound

/-- The tag around statements is no tag of a block. -/
theorem silent_liquidTag {statements : List String} (h : ∀ text ∈ statements, IsPlain text) :
    Silent (Block.liquidTag statements) := by
  have hStart : IsPlain (" " ++ "liquid") := by decide
  have hBreak : IsPlain "\n" := by decide
  have hLines : IsPlain (String.join (statements.map (LineBuffer.wholeLine "  " 1))) := by
    refine isPlain_join fun text hm => ?_
    obtain ⟨statement, hStatement, rfl⟩ := List.mem_map.1 hm
    exact isPlain_wholeLine (h statement hStatement)
  have hText : Block.liquidTag statements = "\x7b%" ++ (" " ++ "liquid" ++
      ("\n" ++ String.join (statements.map (LineBuffer.wholeLine "  " 1)))) ++ "%\x7d" := by
    rw [Block.liquidTag_eq]
    simp [← String.toList_inj, String.toList_append]
  rw [hText]
  exact reads_word (by decide) (by decide) '\n' (by decide)
    (String.join (statements.map (LineBuffer.wholeLine "  " 1))).toList
    (by simp [String.toList_append]) (hStart.append (hBreak.append hLines))

end Nesting

end PagePress
