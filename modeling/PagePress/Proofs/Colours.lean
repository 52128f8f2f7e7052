import PagePress.Error

/-!
# Colours of errors

An error for a terminal is its plain text with control sequences between the characters. A palette
puts them around the parts of the text; the parts themselves come from the error and from the place
where it happened, and have no control sequences of their own as long as no escape is in them. Then
dropping all sequences leaves the plain text.

## Main results

* `ColouredChars.append` — coloured texts one after the other.
* `ColouredChars.dropSequences_eq` — what is left of a coloured text without its sequences.
* `coloured_render` — an error with a palette of control sequences and without.
* `render_uncoloured` — the text of an error for a terminal, without its control sequences.
-/

namespace PagePress

variable {coloured plain more rest text : String} {palette : Palette} {context : String}

/-! ## Control sequences -/

/-- A text without its control sequences. An escape and a bracket start a sequence, and the first
letter m behind them ends it. The flag tells whether the text starts inside of one. -/
def dropSequences : Bool → List Char → List Char
  | _, [] => []
  | true, c :: cs => dropSequences (c != 'm') cs
  | false, '\x1b' :: '[' :: cs => dropSequences true cs
  | false, c :: cs => c :: dropSequences false cs

/-- A text as it reads where control sequences do not show. -/
def uncoloured (text : String) : String := String.ofList (dropSequences false text.toList)

/-- A text without escapes, and that text with control sequences between its characters. -/
inductive ColouredChars : List Char → List Char → Prop where
  | nil : ColouredChars [] []
  | cons {c : Char} {cs ds : List Char} (hEscape : c ≠ '\x1b') (h : ColouredChars cs ds) :
      ColouredChars (c :: cs) (c :: ds)
  | sequence {code cs ds : List Char} (hEnd : 'm' ∉ code) (h : ColouredChars cs ds) :
      ColouredChars ('\x1b' :: '[' :: (code ++ 'm' :: cs)) ds

namespace ColouredChars

variable {cs ds es fs : List Char}

theorem append (h : ColouredChars cs ds) (hMore : ColouredChars es fs) :
    ColouredChars (cs ++ es) (ds ++ fs) := by
  induction h with
  | nil => exact hMore
  | cons hEscape h ih => exact .cons hEscape ih
  | sequence hEnd h ih =>
      rw [List.cons_append, List.cons_append, List.append_assoc, List.cons_append]
      exact .sequence hEnd ih

/-- A text without escapes may stay without colours. -/
theorem refl (h : '\x1b' ∉ cs) : ColouredChars cs cs := by
  induction cs with
  | nil => exact .nil
  | cons c cs ih =>
      rw [List.mem_cons, not_or] at h
      exact .cons (Ne.symm h.1) (ih h.2)

theorem escape_not_mem (h : ColouredChars cs ds) : '\x1b' ∉ ds := by
  induction h with
  | nil => exact List.not_mem_nil
  | cons hEscape h ih => exact List.not_mem_cons_of_ne_of_not_mem (Ne.symm hEscape) ih
  | sequence hEnd h ih => exact ih

/-- Inside of a sequence everything up to its end is dropped. -/
theorem dropSequences_code {code : List Char} (hEnd : 'm' ∉ code) (cs : List Char) :
    dropSequences true (code ++ 'm' :: cs) = dropSequences false cs := by
  induction code with
  | nil => rfl
  | cons c code ih =>
      rw [List.mem_cons, not_or] at hEnd
      have hInside : (c != 'm') = true := bne_iff_ne.2 (Ne.symm hEnd.1)
      rw [List.cons_append, dropSequences, hInside, ih hEnd.2]

/-- Without its sequences a coloured text is the text without colours. -/
theorem dropSequences_eq (h : ColouredChars cs ds) : dropSequences false cs = ds := by
  induction h with
  | nil => rfl
  | @cons c cs ds hEscape h ih =>
      rw [dropSequences.eq_4 _ _ fun _ hStart _ => hEscape hStart, ih]
  | @sequence code cs ds hEnd h ih => rw [dropSequences, dropSequences_code hEnd, ih]

end ColouredChars

/-! ## Coloured texts -/

/-- A text, and that text with colours. -/
def Coloured (coloured plain : String) : Prop := ColouredChars coloured.toList plain.toList

namespace Coloured

theorem append {others : String} (h : Coloured coloured plain) (hMore : Coloured more others) :
    Coloured (coloured ++ more) (plain ++ others) := by
  rw [Coloured, String.toList_append, String.toList_append]
  exact ColouredChars.append h hMore

theorem refl (text : String) (h : '\x1b' ∉ text.toList) : Coloured text text :=
  ColouredChars.refl h

theorem uncoloured_eq (h : Coloured coloured plain) : uncoloured coloured = plain := by
  rw [uncoloured, ColouredChars.dropSequences_eq h, String.ofList_toList]

/-- A control sequence alone is no text. -/
theorem ofCode (code : String) (hEnd : 'm' ∉ code.toList) :
    Coloured ("\x1b[" ++ code ++ "m") "" := by
  rw [Coloured, String.toList_append, String.toList_append]
  exact ColouredChars.sequence hEnd .nil

end Coloured

/-! ## Palettes -/

/-- The parts of a palette are control sequences. -/
structure Palette.IsSilent (palette : Palette) : Prop where
  alarm : Coloured palette.alarm ""
  dim : Coloured palette.dim ""
  accent : Coloured palette.accent ""
  bold : Coloured palette.bold ""
  reset : Coloured palette.reset ""

theorem Palette.isSilent_terminal : Palette.terminal.IsSilent where
  alarm := Coloured.ofCode "1;31" (by decide)
  dim := Coloured.ofCode "2" (by decide)
  accent := Coloured.ofCode "1;38;5;73" (by decide)
  bold := Coloured.ofCode "1" (by decide)
  reset := Coloured.ofCode "0" (by decide)

/-- A mark in colours. -/
theorem Palette.IsSilent.mark (h : palette.IsSilent) {part label : String}
    (hPart : Coloured part "") (hLabel : '\x1b' ∉ label.toList) :
    Coloured (part ++ label ++ palette.reset) ("" ++ label ++ "") :=
  (hPart.append (.refl label hLabel)).append h.reset

/-! ## Texts of errors -/

/-- The texts that an error of an expression brings with it. -/
def ExpressionError.texts (error : ExpressionError) : List String :=
  error.message :: (error.expression.toList ++ error.help.toList)

/-- The texts that the fault of a setting brings with it. -/
def SettingFault.texts : SettingFault → List String
  | .malformed error => [error.reason]
  | .ungrammatical message => [message]
  | .notAPath => []

/-- The texts that an error brings with it. -/
def PublishError.texts : PublishError → List String
  | .expression error => error.texts
  | .missingTagName id => [id]
  | .missingPageFile path => [path]
  | .notHtml path => [path]
  | .unknownDataSource id => [id]
  | .invalidSetting name fault => name :: fault.texts
  | .invalidOptions error => [error.reason]
  | .io path reason => [path, reason]
  | .malformed error => [error.reason]

/-- The lines of a text have no character that the text does not have. -/
theorem escape_not_mem_lines (h : '\x1b' ∉ text.toList) :
    ∀ line ∈ Text.lines text, '\x1b' ∉ line.toList := by
  have hNone : (String.join (Text.lines text)).toList.count '\x1b' = 0 := by
    rw [Text.count_join_lines (by decide) (by decide), List.count_eq_zero.2 h]
  intro line hLine hEscape
  refine List.count_eq_zero.1 hNone ?_
  rw [String.toList_join]
  exact List.mem_flatMap.2 ⟨line, hLine, hEscape⟩

theorem escape_not_mem_append (h : '\x1b' ∉ text.toList) (hRest : '\x1b' ∉ rest.toList) :
    '\x1b' ∉ (text ++ rest).toList := by
  rw [String.toList_append, List.mem_append, not_or]
  exact ⟨h, hRest⟩

theorem ExpressionError.Kind.escape_not_mem_title (kind : ExpressionError.Kind) :
    '\x1b' ∉ kind.title.toList := by
  cases kind <;> decide

theorem SettingFault.escape_not_mem_reason {fault : SettingFault}
    (h : ∀ text ∈ fault.texts, '\x1b' ∉ text.toList) : '\x1b' ∉ fault.reason.toList := by
  cases fault with
  | malformed error => exact h _ List.mem_cons_self
  | ungrammatical message => exact h _ List.mem_cons_self
  | notAPath => decide

theorem PublishError.escape_not_mem_message {error : PublishError}
    (h : ∀ text ∈ error.texts, '\x1b' ∉ text.toList) : '\x1b' ∉ error.message.toList := by
  cases error with
  | expression error => exact h _ List.mem_cons_self
  | missingTagName id =>
      exact escape_not_mem_append (escape_not_mem_append (by decide) (h _ List.mem_cons_self))
        (by decide)
  | missingPageFile path => exact escape_not_mem_append (by decide) (h _ List.mem_cons_self)
  | notHtml path =>
      exact escape_not_mem_append (escape_not_mem_append (by decide) (h _ List.mem_cons_self))
        (by decide)
  | unknownDataSource id =>
      exact escape_not_mem_append (escape_not_mem_append (by decide) (h _ List.mem_cons_self))
        (by decide)
  | invalidSetting name fault =>
      obtain ⟨hName, hFault⟩ := List.forall_mem_cons.1 h
      have hReason := SettingFault.escape_not_mem_reason hFault
      exact escape_not_mem_append (escape_not_mem_append
        (escape_not_mem_append (by decide) hName) (by decide)) hReason
  | invalidOptions error => exact escape_not_mem_append (by decide) (h _ List.mem_cons_self)
  | io path reason =>
      obtain ⟨hPath, hReason⟩ := List.forall_mem_cons.1 h
      exact escape_not_mem_append (escape_not_mem_append hPath (by decide))
        (hReason _ List.mem_cons_self)
  | malformed error => exact h _ List.mem_cons_self

/-! ## Rendered errors -/

/-- The lines of a hint, of which the first one has a mark in colours. -/
theorem coloured_helpLines (hPalette : palette.IsSilent) {lines : List String}
    (h : ∀ line ∈ lines, '\x1b' ∉ line.toList) :
    Coloured (String.join (palette.helpLines lines))
      (String.join (Palette.plain.helpLines lines)) := by
  cases lines with
  | nil => exact .refl _ List.not_mem_nil
  | cons first rest =>
      obtain ⟨hFirst, hRest⟩ := List.forall_mem_cons.1 h
      rw [Palette.helpLines, Palette.helpLines, String.join_cons, String.join_cons]
      have hMark := ((((Coloured.refl " " (by decide)).append hPalette.accent).append
        (.refl "help:" (by decide))).append hPalette.reset)
      refine (((hMark.append (.refl " " (by decide))).append (.refl _ hFirst)).append
        (.refl "\n" (by decide))).append (.refl _ ?_)
      rw [String.toList_join, List.mem_flatMap]
      rintro ⟨line, hLine, hEscape⟩
      obtain ⟨shown, hShown, rfl⟩ := List.mem_map.1 hLine
      exact escape_not_mem_append (escape_not_mem_append (by decide) (hRest shown hShown))
        (by decide) hEscape

theorem ExpressionError.coloured_render (hPalette : palette.IsSilent) {error : ExpressionError}
    (hTexts : ∀ text ∈ error.texts, '\x1b' ∉ text.toList) (hContext : '\x1b' ∉ context.toList) :
    Coloured (error.render palette context) (error.render .plain context) := by
  obtain ⟨kind, message, expression, help⟩ := error
  obtain ⟨hMessage, hParts⟩ := List.forall_mem_cons.1 hTexts
  obtain ⟨hExpression, hHelp⟩ := List.forall_mem_append.1 hParts
  have hFeed : Coloured "\n" "\n" := .refl _ (by decide)
  have hBlank : Coloured " " " " := .refl _ (by decide)
  have hPlace : Coloured
      (if context.isEmpty then ""
        else " " ++ palette.dim ++ "in:" ++ palette.reset ++ " " ++ context ++ "\n")
      (if context.isEmpty then ""
        else " " ++ Palette.plain.dim ++ "in:" ++ Palette.plain.reset ++ " " ++ context ++
          "\n") := by
    split
    · exact .refl _ List.not_mem_nil
    · exact (((((hBlank.append hPalette.dim).append (.refl "in:" (by decide))).append
        hPalette.reset).append hBlank).append (.refl _ hContext)).append hFeed
  have hHeading : Coloured
      (palette.alarm ++ "error:" ++ palette.reset ++ " " ++ kind.title ++ ": " ++ message ++ "\n")
      (Palette.plain.alarm ++ "error:" ++ Palette.plain.reset ++ " " ++ kind.title ++ ": " ++
        message ++ "\n") := by
    have hMark := hPalette.mark hPalette.alarm (show '\x1b' ∉ "error:".toList by decide)
    exact ((((hMark.append hBlank).append (.refl _ kind.escape_not_mem_title)).append
      (.refl ": " (by decide))).append (.refl _ hMessage)).append hFeed
  have hBar : Coloured (palette.dim ++ "   |" ++ palette.reset)
      (Palette.plain.dim ++ "   |" ++ Palette.plain.reset) :=
    hPalette.mark hPalette.dim (by decide)
  unfold render
  refine ((((hFeed.append hPlace).append hHeading).append ?_).append ?_).append hFeed
  · cases expression with
    | none => exact .refl _ List.not_mem_nil
    | some shown =>
        have hShown : '\x1b' ∉ shown.toList := hExpression _ List.mem_cons_self
        have hBars := ((hBar.append hFeed).append hBar).append hBlank
        exact (hBars.append (.refl _ hShown)).append hFeed
  · cases help with
    | none => exact .refl _ List.not_mem_nil
    | some hint =>
        have hHint : '\x1b' ∉ hint.toList := hHelp _ List.mem_cons_self
        exact hFeed.append (coloured_helpLines hPalette (escape_not_mem_lines hHint))

theorem PublishError.coloured_render (hPalette : palette.IsSilent) {error : PublishError}
    (hTexts : ∀ text ∈ error.texts, '\x1b' ∉ text.toList) (hContext : '\x1b' ∉ context.toList) :
    Coloured (error.render palette context) (error.render .plain context) := by
  have hMessage := escape_not_mem_message hTexts
  cases error with
  | expression error => exact ExpressionError.coloured_render hPalette hTexts hContext
  | _ =>
      have hMark := hPalette.mark hPalette.alarm (show '\x1b' ∉ "error:".toList by decide)
      exact ((((hMark.append (.refl " " (by decide))).append hPalette.bold).append
        (.refl _ hMessage)).append hPalette.reset).append (.refl "\n" (by decide))

/-- Neither the texts of an error nor that of its context have an escape. Then the plain text of the
error has none, and it is what the coloured text reads as where control sequences do not show. -/
theorem render_uncoloured (context : String) (hContext : '\x1b' ∉ context.toList) :
    (∀ error : ExpressionError, (∀ text ∈ error.texts, '\x1b' ∉ text.toList) →
        '\x1b' ∉ (error.render .plain context).toList ∧
          uncoloured (error.render .terminal context) = error.render .plain context) ∧
      ∀ error : PublishError, (∀ text ∈ error.texts, '\x1b' ∉ text.toList) →
        '\x1b' ∉ (error.render .plain context).toList ∧
          uncoloured (error.render .terminal context) = error.render .plain context := by
  constructor
  · intro error hTexts
    have hRender := error.coloured_render Palette.isSilent_terminal hTexts hContext
    exact ⟨hRender.escape_not_mem, hRender.uncoloured_eq⟩
  · intro error hTexts
    have hRender := error.coloured_render Palette.isSilent_terminal hTexts hContext
    exact ⟨hRender.escape_not_mem, hRender.uncoloured_eq⟩

/-- An error with tokens to show and a hint of two lines. -/
def longHint : ExpressionError :=
  ⟨.leadingFilter, "Expression cannot start with a filter", some "first -> title",
    some "Start with a property\nor with a state"⟩

theorem longHint_uncoloured :
    '\x1b' ∉ "page Home".toList ∧ (∀ text ∈ longHint.texts, '\x1b' ∉ text.toList) ∧
      uncoloured (longHint.render .terminal "page Home") =
        "\n in: page Home\nerror: Leading filter: Expression cannot start with a filter\n   |\n" ++
          "   | first -> title\n\n help: Start with a property\n       or with a state\n\n" ∧
      (∀ text ∈ (PublishError.io "a.html" "denied").texts, '\x1b' ∉ text.toList) ∧
      uncoloured ((PublishError.io "a.html" "denied").render .terminal "page Home") =
        "error: a.html: denied\n" := by
  have hContext : '\x1b' ∉ "page Home".toList := by decide
  have hHint : ∀ text ∈ longHint.texts, '\x1b' ∉ text.toList := by decide
  have hDenied : ∀ text ∈ (PublishError.io "a.html" "denied").texts, '\x1b' ∉ text.toList := by
    decide
  obtain ⟨hExpression, hPublish⟩ := render_uncoloured "page Home" hContext
  refine ⟨hContext, hHint, (hExpression longHint hHint).2.trans ?_, hDenied,
    (hPublish _ hDenied).2.trans ?_⟩
  · decide +kernel
  · decide +kernel

end PagePress
