import PagePress.Proofs.Numbering.Assembly
import PagePress.Publication.Publisher

/-!
# Publishing is in step

Pages are rendered and assembled one after the other on a draft. The drafts of two runs stay alike:
their files lie at the same places with the same paths, so both runs find the file of a page at one
place, and what ends one run ends the other.

A pass from one counter is therefore the pass from any other one, with its variables numbered
anew. With random numbers in the data files two runs are not alike, whatever their counters are.

## Main results

* `endsAlike_assemble`, `endsAlike_renderPages` — runs over pages.
* `same_of_counters` — the counter of a pass is seen in the names of variables and nowhere else.
-/

namespace PagePress

variable {P : Pairing} {place : Nat}

/-! ## Files -/

/-- Lists of files of two runs that are alike one by one. -/
abbrev AlikeFiles (P : Pairing) (bound : Nat) (fs gs : List PublishedFile) : Prop :=
  List.Forall₂ (AlikeFile P True bound) fs gs

namespace AlikeFiles

variable {fs gs : List PublishedFile}

theorem mono {a b : Nat} (h : AlikeFiles P a fs gs) (hab : a ≤ b) : AlikeFiles P b fs gs :=
  h.imp fun _ _ hfg => hfg.mono hab

theorem set (h : AlikeFiles P place fs gs) {f g : PublishedFile} (hfg : AlikeFile P True place f g)
    (i : Nat) : AlikeFiles P place (fs.set i f) (gs.set i g) := by
  induction h generalizing i with
  | nil => exact .nil
  | cons hFirst hRest ih =>
      cases i with
      | zero => exact .cons hfg hRest
      | succ i => exact .cons hFirst (ih i)

theorem eraseIdx (h : AlikeFiles P place fs gs) (i : Nat) :
    AlikeFiles P place (fs.eraseIdx i) (gs.eraseIdx i) := by
  induction h generalizing i with
  | nil => exact .nil
  | cons hFirst hRest ih =>
      cases i with
      | zero => exact hRest
      | succ i => exact .cons hFirst (ih i)

theorem placeFiles (h : AlikeFiles P place fs gs) (i : Nat) {news others : List PublishedFile}
    (hNews : AlikeFiles P place news others) :
    AlikeFiles P place (Assembly.placeFiles fs i news) (Assembly.placeFiles gs i others) := by
  cases hNews with
  | nil => exact h
  | cons hFirst hRest => exact List.rel_append (h.set hFirst i) hRest

/-- A path is found in neither run, or at one place in both. -/
theorem findFile? (path : String) (h : AlikeFiles P place fs gs) :
    (Assembly.findFile? path fs = none ∧ Assembly.findFile? path gs = none) ∨
      ∃ i f g, Assembly.findFile? path fs = some (i, f) ∧
        Assembly.findFile? path gs = some (i, g) ∧ AlikeFile P True place f g := by
  induction h with
  | nil => exact .inl ⟨rfl, rfl⟩
  | @cons f g fs gs hfg _ ih =>
      unfold Assembly.findFile?
      rw [← hfg.path]
      by_cases hPath : f.path = path
      · rw [if_pos hPath, if_pos hPath]
        exact .inr ⟨0, f, g, rfl, rfl, hfg⟩
      · rw [if_neg hPath, if_neg hPath]
        rcases ih with ⟨hNone, hNone'⟩ | ⟨i, f', g', hSome, hSome', hFound⟩
        · rw [hNone, hNone']
          exact .inl ⟨rfl, rfl⟩
        · rw [hSome, hSome']
          exact .inr ⟨i + 1, f', g', rfl, rfl, hFound⟩

end AlikeFiles

/-! ## Drafts -/

/-- Drafts of two runs at one place. -/
structure AlikeDraft (P : Pairing) (place : Nat) (d e : Draft) : Prop where
  first : P.At P.first place d.context
  second : P.At P.second place e.context
  files : AlikeFiles P place d.files e.files
  notices : d.notices = e.notices

/-- Two runs over pages end with one error, or both without, and what they leave is related at one
place, not before the first. -/
def EndsAlike {σ : Type} (R : Nat → σ → σ → Prop) (place : Nat)
    (x y : Option PublishError × σ) : Prop :=
  ∃ after, place ≤ after ∧ x.1 = y.1 ∧ R after x.2 y.2

theorem EndsAlike.of_le {σ : Type} {R : Nat → σ → σ → Prop} {later : Nat}
    {x y : Option PublishError × σ} (h : EndsAlike R later x y) (hle : place ≤ later) :
    EndsAlike R place x y := by
  obtain ⟨after, hAfter, hError, hRelated⟩ := h
  exact ⟨after, Nat.le_trans hle hAfter, hError, hRelated⟩

/-! ## Assembly -/

namespace Assembly

variable {options : Options} {d e : Draft} (host : Host)

theorem endsAlike_assembleAt (hBuster : options.cacheBuster ≠ .random) (page : Page) (i : Nat)
    {f g : PublishedFile} (hFile : AlikeFile P True place f g) (h : AlikeDraft P place d e) :
    EndsAlike (AlikeDraft P) place (assembleAt host options page i f d)
      (assembleAt host options page i g e) := by
  have hAgree := inStep_pageFiles host page (fun _ => hBuster) hFile d.context e.context
    h.first h.second
  unfold assembleAt
  cases hm : (pageFiles host options page f).runIn d.context with | mk x c =>
  cases hn : (pageFiles host options page g).runIn e.context with | mk y c' =>
  rw [hm, hn] at hAgree
  cases hAgree with
  | ok le hFirst hSecond hFiles =>
      exact ⟨_, le, rfl, hFirst, hSecond, (h.files.mono le).placeFiles i hFiles, h.notices⟩
  | @error error _ _ _ le hFirst hSecond =>
      have hFiles := h.files.mono le
      by_cases hLocal : error.isPageLocal = true
      · simp only [hLocal, ↓reduceIte]
        exact ⟨_, le, rfl, hFirst, hSecond, hFiles.eraseIdx i,
          congrArg (· ++ [.pageDropped page.name error]) h.notices⟩
      · simp only [hLocal, Bool.false_eq_true, ↓reduceIte]
        exact ⟨_, le, rfl, hFirst, hSecond, hFiles, h.notices⟩

theorem endsAlike_assemblePage (hBuster : options.cacheBuster ≠ .random) (page : Page)
    (h : AlikeDraft P place d e) :
    EndsAlike (AlikeDraft P) place (assemblePage host options page d)
      (assemblePage host options page e) := by
  unfold assemblePage
  rcases h.files.findFile? (pagePath options (pageSlug page.name)) with
    ⟨hNone, hNone'⟩ | ⟨i, f, g, hSome, hSome', hFile⟩
  · simp only [hNone, hNone']
    exact ⟨place, Nat.le_refl place, rfl, h⟩
  · simp only [hSome, hSome', ← hFile.type]
    by_cases hType : f.type = .html
    · rw [if_pos hType, if_pos hType]
      exact endsAlike_assembleAt host hBuster page i hFile h
    · rw [if_neg hType, if_neg hType]
      exact ⟨place, Nat.le_refl place, rfl, h⟩

theorem endsAlike_assemble (hBuster : options.cacheBuster ≠ .random) (pages : List Page) :
    ∀ {place : Nat} {d e : Draft}, AlikeDraft P place d e →
      EndsAlike (AlikeDraft P) place (assemble host options pages d)
        (assemble host options pages e) := by
  induction pages with
  | nil => exact fun h => ⟨_, Nat.le_refl _, rfl, h⟩
  | cons page pages ih =>
      intro place d e h
      obtain ⟨here, hHere, hError, hDraft⟩ := endsAlike_assemblePage host hBuster page h
      unfold assemble
      rcases hx : assemblePage host options page d with ⟨x, d'⟩
      rcases hy : assemblePage host options page e with ⟨y, e'⟩
      rw [hx, hy] at hError hDraft
      obtain rfl : x = y := hError
      cases x with
      | none => exact (ih hDraft).of_le hHere
      | some error => exact ⟨here, hHere, rfl, hDraft⟩

end Assembly

/-! ## Rendering -/

namespace Publisher

/-- Work of two runs at one place, on the same pages. -/
structure AlikeWork (P : Pairing) (place : Nat) (v w : Rendered) : Prop where
  draft : AlikeDraft P place v.draft w.draft
  pages : v.pages = w.pages

variable {v w : Rendered} (host : Host) (options : Options)

theorem endsAlike_renderPage (page : Page) (h : AlikeWork P place v w) :
    EndsAlike (AlikeWork P) place (renderPage host options page v)
      (renderPage host options page w) := by
  have hAgree := Markup.inStep_renderTree host.resultType page.component place v.draft.context
    w.draft.context h.draft.first h.draft.second
  have hNotices := congrArg (· ++ (validated page).2) h.draft.notices
  unfold renderPage validated at *
  dsimp only at *
  cases hm : (Markup.renderTree host.resultType page.component).runIn v.draft.context with
  | mk x c =>
  cases hn : (Markup.renderTree host.resultType page.component).runIn w.draft.context with
  | mk y c' =>
  rw [hm, hn] at hAgree
  cases hAgree with
  | @ok text text' _ _ after le hFirst hSecond hText =>
      let path := Assembly.pagePath options (pageSlug page.name)
      have hFile : AlikeFiles P after [⟨path, .html, text⟩] [⟨path, .html, text'⟩] :=
        .cons ⟨rfl, rfl, fun _ => hText⟩ .nil
      have hFiles := List.rel_append (h.draft.files.mono le) hFile
      exact ⟨after, le, rfl, ⟨hFirst, hSecond, hFiles, hNotices⟩,
        congrArg (· ++ [(validated page).1]) h.pages⟩
  | @error error _ _ _ le hFirst hSecond =>
      have hFiles := h.draft.files.mono le
      by_cases hLocal : error.isPageLocal = true
      · simp only [hLocal, ↓reduceIte]
        exact ⟨_, le, rfl, ⟨hFirst, hSecond, hFiles,
          congrArg (· ++ [.pageDropped page.name error]) hNotices⟩, h.pages⟩
      · simp only [hLocal, Bool.false_eq_true, ↓reduceIte]
        exact ⟨_, le, rfl, ⟨hFirst, hSecond, hFiles, hNotices⟩, h.pages⟩

theorem endsAlike_renderPages (pages : List Page) :
    ∀ {place : Nat} {v w : Rendered}, AlikeWork P place v w →
      EndsAlike (AlikeWork P) place (renderPages host options pages v)
        (renderPages host options pages w) := by
  induction pages with
  | nil => exact fun h => ⟨_, Nat.le_refl _, rfl, h⟩
  | cons page pages ih =>
      intro place v w h
      obtain ⟨here, hHere, hError, hWork⟩ := endsAlike_renderPage host options page h
      unfold renderPages
      rcases hx : renderPage host options page v with ⟨x, v'⟩
      rcases hy : renderPage host options page w with ⟨y, w'⟩
      rw [hx, hy] at hError hWork
      obtain rfl : x = y := hError
      cases x with
      | none => exact (ih hWork).of_le hHere
      | some error => exact ⟨here, hHere, rfl, hWork⟩

end Publisher

/-! ## The whole pass -/

theorem endsAlike_publishPages (host : Host) {options : Options}
    (hBuster : options.cacheBuster ≠ .random) (pages : List Page) {c d : Context}
    (hFirst : P.At P.first place c) (hSecond : P.At P.second place d) :
    EndsAlike (AlikeDraft P) place (publishPages host options pages c)
      (publishPages host options pages d) := by
  obtain ⟨here, hHere, hError, hWork⟩ := Publisher.endsAlike_renderPages host options pages
    (show Publisher.AlikeWork P place ⟨⟨c, [], []⟩, []⟩ ⟨⟨d, [], []⟩, []⟩ from
      ⟨⟨hFirst, hSecond, .nil, rfl⟩, rfl⟩)
  unfold publishPages
  rcases hx : Publisher.renderPages host options pages ⟨⟨c, [], []⟩, []⟩ with ⟨x, v⟩
  rcases hy : Publisher.renderPages host options pages ⟨⟨d, [], []⟩, []⟩ with ⟨y, w⟩
  rw [hx, hy] at hError hWork
  obtain rfl : x = y := hError
  cases x with
  | some error => exact ⟨here, hHere, rfl, hWork.draft⟩
  | none =>
      dsimp only at hWork ⊢
      rw [← hWork.pages]
      by_cases hEnabled : options.enabled = true
      · rw [if_pos hEnabled, if_pos hEnabled]
        exact (Assembly.endsAlike_assemble host hBuster v.pages hWork.draft).of_le hHere
      · rw [if_neg hEnabled, if_neg hEnabled]
        exact ⟨here, hHere, rfl, hWork.draft⟩

/-! ## Runs from two counters -/

/-- Two runs that start at two numbers and take the same number of variables. -/
structure TakenFrom (n m taken : Nat) (c d : Context) : Prop where
  first : c.nextVariable = n + taken
  second : d.nextVariable = m + taken

/-- Texts that are one text with holes. The hole of a variable is filled with its place among the
variables that were taken, counted from a number of its own for each text. -/
def SameText (n m taken : Nat) (s t : String) : Prop := Alike (n + ·) (m + ·) taken s t

/-- Results that are one error, or one text with holes. -/
inductive SameResult {ε : Type} (n m taken : Nat) : Except ε String → Except ε String → Prop
  | ok {s t : String} (h : SameText n m taken s t) : SameResult n m taken (.ok s) (.ok t)
  | error (e : ε) : SameResult n m taken (.error e) (.error e)

/-- Files with one path, one type, and one text with holes. -/
structure SameFile (n m taken : Nat) (f g : PublishedFile) : Prop where
  path : f.path = g.path
  type : f.type = g.type
  content : SameText n m taken f.content g.content

/-- Publications that end with one error, if any, and have the same notices and the same files in
the same order. -/
structure SamePublication (n m taken : Nat) (x y : Option PublishError × Draft) : Prop where
  error : x.1 = y.1
  notices : x.2.notices = y.2.notices
  files : List.Forall₂ (SameFile n m taken) x.2.files y.2.files

/-- A context with another counter. -/
def Context.countingFrom (context : Context) (n : Nat) : Context :=
  { context with nextVariable := n }

section

variable (context : Context) (n m : Nat)

/-- Both runs, from the place of no variable. -/
def Pairing.ofCounters : Pairing :=
  .ofContexts (context.countingFrom n) (context.countingFrom m)

theorem Pairing.at_ofCounters_first :
    (Pairing.ofCounters context n m).At (n + ·) 0 (context.countingFrom n) :=
  ⟨fun i => congrArg (n + ·) (Nat.zero_add i), rfl, rfl⟩

theorem Pairing.at_ofCounters_second :
    (Pairing.ofCounters context n m).At (m + ·) 0 (context.countingFrom m) :=
  ⟨fun i => congrArg (m + ·) (Nat.zero_add i), rfl, rfl⟩

theorem Pairing.takenFrom {taken : Nat} {c d : Context}
    (hFirst : (Pairing.ofCounters context n m).At (n + ·) taken c)
    (hSecond : (Pairing.ofCounters context n m).At (m + ·) taken d) : TakenFrom n m taken c d := by
  have hC : n + (taken + 0) = c.nextVariable + 0 := hFirst.next 0
  have hD : m + (taken + 0) = d.nextVariable + 0 := hSecond.next 0
  constructor <;> omega

/-- The counter of a pass names variables and decides nothing: from two counters a tree and a site
take the same number of variables, end with the same error if there is one, and give the same texts
but for the names of these variables. -/
theorem same_of_counters (host : Host) {options : Options} (hBuster : options.cacheBuster ≠ .random)
    (resultType : Block.ResultType) (tree : Component) (pages : List Page) :
    (∃ taken,
      TakenFrom n m taken
        ((Markup.renderTree resultType tree).runIn (context.countingFrom n)).2
        ((Markup.renderTree resultType tree).runIn (context.countingFrom m)).2 ∧
      SameResult n m taken
        ((Markup.renderTree resultType tree).runIn (context.countingFrom n)).1
        ((Markup.renderTree resultType tree).runIn (context.countingFrom m)).1) ∧
    ∃ taken,
      TakenFrom n m taken
        (publishPages host options pages (context.countingFrom n)).2.context
        (publishPages host options pages (context.countingFrom m)).2.context ∧
      SamePublication n m taken
        (publishPages host options pages (context.countingFrom n))
        (publishPages host options pages (context.countingFrom m)) := by
  have hFirst := Pairing.at_ofCounters_first context n m
  have hSecond := Pairing.at_ofCounters_second context n m
  constructor
  · have hAgree := Markup.inStep_renderTree resultType tree 0 _ _ hFirst hSecond
    rcases hx : (Markup.renderTree resultType tree).runIn (context.countingFrom n) with ⟨x, c⟩
    rcases hy : (Markup.renderTree resultType tree).runIn (context.countingFrom m) with ⟨y, d⟩
    rw [hx, hy] at hAgree
    cases hAgree with
    | ok _ hC hD hText => exact ⟨_, Pairing.takenFrom context n m hC hD, .ok hText⟩
    | error _ hC hD => exact ⟨_, Pairing.takenFrom context n m hC hD, .error _⟩
  · obtain ⟨taken, -, hError, hDraft⟩ :=
      endsAlike_publishPages host hBuster pages hFirst hSecond
    have hFiles : List.Forall₂ (SameFile n m taken)
        (publishPages host options pages (context.countingFrom n)).2.files
        (publishPages host options pages (context.countingFrom m)).2.files :=
      hDraft.files.imp fun _ _ hFile => ⟨hFile.path, hFile.type, hFile.content trivial⟩
    exact ⟨taken, Pairing.takenFrom context n m hDraft.first hDraft.second,
      hError, hDraft.notices, hFiles⟩

end

/-- A page in two languages, with a bound text and an address that is an expression. -/
def boundPage : Page where
  name := "Home"
  settings := {
    languagesList := some "en, fr"
    permalink := some
      "[\x7b\"type\":\"property\",\"fieldId\":\"slug\",\"dataSourceId\":\"cms\"\x7d]" }
  component := .leaf {
    id := "body"
    tagName := some "body"
    privateStates := [⟨"innerHTML", none, false,
      [.property ⟨"title", "title", some "cms", [], .scalar, none⟩]⟩] }

theorem boundPage_renumbered :
    (publishPages ({} : Site).host { cacheBuster := .none } [boundPage]
        ((Context.start {} 0 []).countingFrom 0)).1 = none ∧
      TakenFrom 0 7 3
        (publishPages ({} : Site).host { cacheBuster := .none } [boundPage]
          ((Context.start {} 0 []).countingFrom 0)).2.context
        (publishPages ({} : Site).host { cacheBuster := .none } [boundPage]
          ((Context.start {} 0 []).countingFrom 7)).2.context ∧
      SamePublication 0 7 3
        (publishPages ({} : Site).host { cacheBuster := .none } [boundPage]
          ((Context.start {} 0 []).countingFrom 0))
        (publishPages ({} : Site).host { cacheBuster := .none } [boundPage]
          ((Context.start {} 0 []).countingFrom 7)) := by
  obtain ⟨-, taken, hTaken, hSame⟩ := same_of_counters (Context.start {} 0 []) 0 7 ({} : Site).host
    (show ({ cacheBuster := .none } : Options).cacheBuster ≠ .random by decide)
    (fun _ _ => none) boundPage.component [boundPage]
  have hCounter : (publishPages ({} : Site).host { cacheBuster := .none } [boundPage]
      ((Context.start {} 0 []).countingFrom 0)).2.context.nextVariable = 3 := by
    decide +kernel
  have hFirst := hTaken.first
  obtain rfl : taken = 3 := by omega
  exact ⟨by decide +kernel, hTaken, hSame⟩

end PagePress
