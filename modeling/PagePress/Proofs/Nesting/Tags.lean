import PagePress.Text.Blank

/-!
# Block tags of a template

A reader of a template finds its tags by their marks and tells them apart by their first words.
Here it keeps the tags that start and end blocks; all others, those with statements among them, it
passes over.

A text without percent signs has no marks, so it adds no tag and hides none. That a text adds
exactly some tags, whatever follows it, is kept when texts are put one after the other. Nesting is
kept when a block is put around a text.

## Main results

* `Reads.blockTags_eq` — what a text adds is what is read off it alone.
* `Reads.append`, `WellNested.append` — tags of texts one after the other.
* `WellNested.around` — a block around a well nested text is well nested.
-/

namespace PagePress.Nesting

/-! ## Reading tags -/

/-- A block of a template. -/
inductive BlockKind where
  | loop
  | condition
  | negation
deriving DecidableEq, Repr

/-- A tag that starts or ends a block. -/
inductive BlockTag where
  | opening (kind : BlockKind)
  | closing (kind : BlockKind)
deriving DecidableEq, Repr

/-- The tag of a block with a name. -/
def BlockTag.named? : String → Option BlockTag
  | "for" => some (.opening .loop)
  | "endfor" => some (.closing .loop)
  | "if" => some (.opening .condition)
  | "endif" => some (.closing .condition)
  | "unless" => some (.opening .negation)
  | "endunless" => some (.closing .negation)
  | _ => none

/-- What stands in the tags of a text, read from outside a tag or, with what was read of it so far
in reverse, from inside one. A tag that does not end is none. -/
def tagContents : Option (List Char) → List Char → List (List Char)
  | _, [] => []
  | none, '{' :: '%' :: rest => tagContents (some []) rest
  | none, _ :: rest => tagContents none rest
  | some content, '%' :: '}' :: rest => content.reverse :: tagContents none rest
  | some content, c :: rest => tagContents (some (c :: content)) rest

/-- The first word of a tag. -/
def tagName (content : List Char) : String :=
  String.ofList ((content.dropWhile Text.isBlank).takeWhile fun c => !Text.isBlank c)

/-- The block tags that are read off a text from outside a tag. -/
def readTags (cs : List Char) : List BlockTag :=
  (tagContents none cs).filterMap fun content => BlockTag.named? (tagName content)

/-- The block tags of a text. -/
def blockTags (text : String) : List BlockTag := readTags text.toList

/-- Every opening tag is closed by the end tag of its own kind, and blocks do not cross. -/
inductive Balanced : List BlockTag → Prop
  | nil : Balanced []
  | block (kind : BlockKind) {inner : List BlockTag} (h : Balanced inner) :
      Balanced (.opening kind :: inner ++ [.closing kind])
  | append {first second : List BlockTag} (hFirst : Balanced first) (hSecond : Balanced second) :
      Balanced (first ++ second)

/-! ## Texts without marks -/

/-- A text without percent signs. -/
abbrev IsPlain (text : String) : Prop := '%' ∉ text.toList

theorem IsPlain.append {a b : String} (ha : IsPlain a) (hb : IsPlain b) : IsPlain (a ++ b) := by
  unfold IsPlain
  rw [String.toList_append, List.mem_append]
  exact fun h => h.elim ha hb

/-- A character that no percent sign follows starts no tag. -/
theorem tagContents_cons {c : Char} {cs : List Char} (h : cs.head? ≠ some '%') :
    tagContents none (c :: cs) = tagContents none cs := by
  rw [tagContents]
  rintro rest - rfl
  exact h rfl

theorem tagContents_plain {cs : List Char} (hPlain : '%' ∉ cs) {rest : List Char}
    (hRest : rest.head? ≠ some '%') : tagContents none (cs ++ rest) = tagContents none rest := by
  induction cs with
  | nil => rfl
  | cons c cs ih =>
      have hTail : '%' ∉ cs := fun hm => hPlain (List.mem_cons_of_mem _ hm)
      have hNext : (cs ++ rest).head? ≠ some '%' := by
        cases cs with
        | nil => exact hRest
        | cons d cs =>
            intro hHead
            obtain rfl : d = '%' := by simpa using hHead
            exact hTail List.mem_cons_self
      rw [List.cons_append, tagContents_cons hNext, ih hTail]

/-- A tag goes on up to its end. -/
theorem tagContents_inside {cs : List Char} (hPlain : '%' ∉ cs) (rest : List Char) :
    ∀ content, tagContents (some content) (cs ++ '%' :: '}' :: rest) =
      (content.reverse ++ cs) :: tagContents none rest := by
  induction cs with
  | nil =>
      intro content
      rw [List.nil_append, tagContents, List.append_nil]
  | cons c cs ih =>
      intro content
      have hTail : '%' ∉ cs := fun hm => hPlain (List.mem_cons_of_mem _ hm)
      have hFirst : c ≠ '%' := fun hc => hPlain (hc ▸ List.mem_cons_self)
      rw [List.cons_append, tagContents, ih hTail, List.reverse_cons, List.append_assoc]
      · rfl
      · rintro - rfl
        exact absurd rfl hFirst

/-! ## What a text adds -/

/-- A text adds some tags in front of whatever follows it. -/
structure Reads (text : String) (tags : List BlockTag) : Prop where
  head : text.toList.head? ≠ some '%'
  add : ∀ rest : List Char, rest.head? ≠ some '%' →
    readTags (text.toList ++ rest) = tags ++ readTags rest

namespace Reads

variable {s t : String} {a b : List BlockTag}

theorem blockTags_eq (h : Reads s a) : blockTags s = a := by
  have hAlone := h.add [] (by simp)
  rw [List.append_nil] at hAlone
  rw [blockTags, hAlone]
  exact List.append_nil a

theorem of_isPlain (h : IsPlain s) : Reads s [] := by
  refine ⟨fun hHead => h (List.mem_of_mem_head? hHead), fun rest hRest => ?_⟩
  rw [readTags, tagContents_plain h hRest]
  rfl

theorem append (hs : Reads s a) (ht : Reads t b) : Reads (s ++ t) (a ++ b) := by
  have hHead : ∀ rest : List Char, rest.head? ≠ some '%' →
      (t.toList ++ rest).head? ≠ some '%' := by
    intro rest hRest
    have hFirst := ht.head
    cases hList : t.toList with
    | nil => exact hRest
    | cons c cs =>
        rw [hList] at hFirst
        exact hFirst
  constructor
  · rw [String.toList_append]
    have hFirst := hs.head
    cases hList : s.toList with
    | nil => exact ht.head
    | cons c cs =>
        rw [hList] at hFirst
        exact hFirst
  · intro rest hRest
    rw [String.toList_append, List.append_assoc, hs.add _ (hHead rest hRest), ht.add rest hRest,
      List.append_assoc]

/-- A tag adds itself when it is the tag of a block, and else nothing. -/
theorem tag {content : String} (h : IsPlain content) :
    Reads ("\x7b%" ++ content ++ "%\x7d") (BlockTag.named? (tagName content.toList)).toList := by
  have hList : ("\x7b%" ++ content ++ "%\x7d").toList =
      '{' :: '%' :: (content.toList ++ ['%', '}']) := by
    simp [String.toList_append]
  constructor
  · rw [hList]
    show some '{' ≠ some '%'
    decide
  · intro rest hRest
    have hContents : tagContents none ('{' :: '%' :: (content.toList ++ ['%', '}']) ++ rest) =
        content.toList :: tagContents none rest := by
      have hInside := tagContents_inside h rest []
      simpa [tagContents] using hInside
    rw [readTags, hList, hContents, List.filterMap_cons]
    cases BlockTag.named? (tagName content.toList) with
    | none => rfl
    | some tag => rfl

example : blockTags "\x7b% liquid\n  assign a = b\n%\x7d<i>\x7b% if a %\x7dx\x7b% endif %\x7d</i>" =
    [.opening .condition, .closing .condition] := by
  decide +kernel

end Reads

/-! ## Texts that add nothing -/

/-- A text adds no block tags. -/
abbrev Silent (text : String) : Prop := Reads text []

theorem Silent.append {s t : String} (hs : Silent s) (ht : Silent t) : Silent (s ++ t) :=
  Reads.append hs ht

/-- What is kept when texts are put one after the other is kept when they are joined. -/
theorem intercalate_induction {property : String → Prop} {separator : String}
    {texts : List String} (hEmpty : property "")
    (hAppend : ∀ s t, property s → property t → property (s ++ t))
    (hSeparator : property separator) (h : ∀ text ∈ texts, property text) :
    property (separator.intercalate texts) := by
  induction texts with
  | nil => exact hEmpty
  | cons text rest ih =>
      have hText := h text List.mem_cons_self
      have hRest := ih fun other hm => h other (List.mem_cons_of_mem _ hm)
      cases rest with
      | nil =>
          rw [String.intercalate_singleton]
          exact hText
      | cons next others =>
          rw [String.intercalate_cons_cons]
          exact hAppend _ _ (hAppend _ _ hText hSeparator) hRest

/-! ## Well nested texts -/

/-- The block tags that a text adds are balanced. -/
def WellNested (text : String) : Prop := ∃ tags, Balanced tags ∧ Reads text tags

namespace WellNested

variable {s t : String}

theorem balanced (h : WellNested s) : Balanced (blockTags s) := by
  obtain ⟨tags, hBalanced, hReads⟩ := h
  rw [hReads.blockTags_eq]
  exact hBalanced

theorem of_silent (h : Silent s) : WellNested s := ⟨[], .nil, h⟩

theorem append (hs : WellNested s) (ht : WellNested t) : WellNested (s ++ t) := by
  obtain ⟨a, ha, hReadsS⟩ := hs
  obtain ⟨b, hb, hReadsT⟩ := ht
  exact ⟨a ++ b, ha.append hb, hReadsS.append hReadsT⟩

/-- A block around a well nested text. -/
theorem around {kind : BlockKind} {start finish : String} (hs : WellNested s)
    (hStart : Reads start [.opening kind]) (hFinish : Reads finish [.closing kind]) :
    WellNested (start ++ s ++ finish) := by
  obtain ⟨tags, hBalanced, hReads⟩ := hs
  exact ⟨_, .block kind hBalanced, (hStart.append hReads).append hFinish⟩

end WellNested

end PagePress.Nesting
