import PagePress.Proofs.Numbering.Rendering
import PagePress.Publication.Assembly

/-!
# Assembling a page is in step

A data file has no variables, and the front matter of a page has those of its permalink. So the
files that a page becomes from two counters have the same paths and types, and the same failure
comes out of both runs. Their contents are alike when nothing random goes into them, when the page
was alike before, and when the languages are the same.

What the contents need is a proposition `Q` of its own: without it the lemmas compare two runs in
their failures and paths only, also with different languages or random numbers.

## Main results

* `inStep_frontMatter` — the front matter of a page, whatever the language.
* `inStep_pageFiles` — the files that a page becomes.
-/

namespace PagePress

open Pairing (InStep)

variable {P : Pairing} {place : Nat}

/-! ## Front matter -/

namespace FrontMatter

theorem inStep_expressionPermalink (body : Element) (expression : Expression) :
    P.InStep place P.Alike (expressionPermalink body expression)
      (expressionPermalink body expression) := by
  have hPrinted : P.InStep place P.Alike
      ((Block.echoInline body expression).mapError PublishError.expression)
      ((Block.echoInline body expression).mapError PublishError.expression) :=
    (Block.inStep_echoInline body expression).mapError _
  unfold expressionPermalink
  split
  · split
    · exact InStep.pure (.refl _)
    · exact hPrinted
  · exact hPrinted

theorem inStep_permalink (settings : PageSettings) (slug : String) (body : Element) :
    P.InStep place (fun bound => Option.Rel (P.Alike bound)) (permalink settings slug body)
      (permalink settings slug body) := by
  have hSame : ∀ (bound : Nat) (address : Option String),
      Option.Rel (P.Alike bound) address address := by
    intro bound address
    cases address with
    | none => exact .none
    | some text => exact .some (.refl text)
  unfold permalink
  refine (InStep.ofExcept _).bind fun here own _ _ hOwn => ?_
  subst hOwn
  cases own with
  | none => exact InStep.pure (hSame _ _)
  | some setting =>
      cases setting with
      | text text => exact InStep.pure (hSame _ _)
      | expression expression =>
          exact (inStep_expressionPermalink body expression).bind fun after s t _ hst =>
            InStep.pure (.some hst)

theorem alike_block {bound : Nat} {xs ys : List String}
    (h : List.Forall₂ (P.Alike bound) xs ys) : P.Alike bound (block xs) (block ys) := by
  have hLines : List.Forall₂ (P.Alike bound)
      (("---" :: xs).filter fun line => !Text.isBlankText line)
      (("---" :: ys).filter fun line => !Text.isBlankText line) :=
    Alike.filter _ (fun u v huv => by rw [huv.isBlankText_eq]) (.cons (.refl _) h)
  exact Alike.intercalate "\n" (List.rel_append hLines (Alike.refl_list _))

theorem alike_quotedLine {bound : Nat} (key : String) {s t : String} (h : P.Alike bound s t) :
    P.Alike bound (quotedLine key s) (quotedLine key t) :=
  (h.backslashQuotes.text_append _).append_text "\""

end FrontMatter

open FrontMatter in
/-- The front matter of a page fails alike for all languages, and it is alike for one language. -/
theorem inStep_frontMatter (options : Options) (settings : PageSettings) (slug : String)
    (body : Element) (collection lang lang' : Option String) :
    P.InStep place (fun bound s t => lang = lang' → P.Alike bound s t)
      (frontMatter options settings slug body collection lang)
      (frontMatter options settings slug body collection lang') := by
  unfold frontMatter
  refine (InStep.ofExcept _).bind fun _ data _ _ hData => ?_
  subst hData
  refine (inStep_permalink settings slug body).bind fun after s t _ hst => InStep.pure ?_
  intro hLang
  subst hLang
  cases hst with
  | none => exact alike_block (Alike.refl_list _)
  | some hAddress =>
      have hLine := List.Forall₂.cons (alike_quotedLine "permalink" hAddress) .nil
      have hSame : ∀ lines : List String, List.Forall₂ (P.Alike after) lines lines :=
        Alike.refl_list
      exact alike_block (List.rel_append (List.rel_append (List.rel_append
        (List.rel_append (hSame _) hLine) (hSame _)) (hSame _)) (hSame _))

/-! ## Data files -/

namespace DataFile

variable {ε : Type}

theorem inStep_drawSalt :
    P.InStep place (fun _ _ _ => True) (drawSalt (ε := ε)) drawSalt := by
  have hDraw : ∀ (ν : Numbering) (c : Context), P.At ν place c → ∃ number next,
      (drawSalt (ε := ε)).runIn c = (.ok number, next) ∧ P.At ν place next := by
    intro ν c hc
    rw [drawSalt, Pass.runIn_bind, Pass.runIn_get]
    cases hSalts : c.salts with
    | nil => exact ⟨c.buildId, c, by simp only [hSalts]; rfl, hc⟩
    | cons salt salts =>
        exact ⟨salt % saltLimit, { c with salts := salts }, by simp only [hSalts]; rfl,
          hc.next, hc.sources, hc.buildId⟩
  intro c d hc hd
  obtain ⟨number, next, hRun, hNext⟩ := hDraw _ c hc
  obtain ⟨number', next', hRun', hNext'⟩ := hDraw _ d hd
  rw [hRun, hRun']
  exact .ok (Nat.le_refl place) hNext hNext' trivial

theorem inStep_bustedUrl (buster : CacheBuster) (url : String) :
    P.InStep place (fun _ s t => buster ≠ .random → s = t) (bustedUrl (ε := ε) buster url)
      (bustedUrl buster url) := by
  have hNumber : P.InStep place (fun _ a b => (buster ≠ .random → a = b) ∧ a.isSome = b.isSome)
      (busterNumber? (ε := ε) buster) (busterNumber? buster) := by
    cases buster with
    | none => exact InStep.pure ⟨fun _ => rfl, rfl⟩
    | build =>
        exact InStep.get.bind fun _ c d _ hcd => InStep.pure ⟨fun _ => by rw [hcd.2], rfl⟩
    | random =>
        exact inStep_drawSalt.bind fun _ _ _ _ _ => InStep.pure ⟨fun h => absurd rfl h, rfl⟩
  unfold bustedUrl
  refine hNumber.bind fun _ a b _ hab => ?_
  cases a with
  | none =>
      cases b with
      | none => exact InStep.pure fun _ => rfl
      | some number => cases hab.2
  | some number =>
      cases b with
      | none => cases hab.2
      | some number' =>
          refine InStep.pure fun h => ?_
          rw [Option.some.inj (hab.1 h)]

theorem inStep_fetchSource (options : Options) (source : DataSource) (query : String) :
    P.InStep place (fun _ s t => options.cacheBuster ≠ .random → s = t)
      (fetchSource (ε := ε) options source query) (fetchSource options source query) := by
  unfold fetchSource
  cases source.kind with
  | other => exact InStep.pure fun _ => rfl
  | graphql =>
      refine (inStep_bustedUrl _ _).bind fun _ s t _ hst => InStep.pure fun h => ?_
      rw [hst h]

theorem inStep_fetchAll (options : Options) (dataSource : String → Option DataSource)
    (entries : List (String × String)) :
    ∀ place, P.InStep place (fun _ xs ys => options.cacheBuster ≠ .random → xs = ys)
      (fetchAll options dataSource entries) (fetchAll options dataSource entries) := by
  induction entries with
  | nil => exact fun place => InStep.pure fun _ => rfl
  | cons entry rest ih =>
      intro place
      unfold fetchAll
      cases dataSource entry.1 with
      | none => exact fun c d hc hd => .error (Nat.le_refl place) hc hd
      | some source =>
          refine (inStep_fetchSource options source entry.2).bind fun here s t _ hst => ?_
          refine (ih here).bind fun _ xs ys _ hs => InStep.pure fun h => ?_
          rw [hst h, hs h]

end DataFile

theorem inStep_dataFile (options : Options) (dataSource : String → Option DataSource)
    (query : OrderedMap String) :
    P.InStep place (fun _ s t => options.cacheBuster ≠ .random → s = t)
      (dataFile options dataSource query) (dataFile options dataSource query) := by
  unfold dataFile
  refine (DataFile.inStep_fetchAll options dataSource query.entries place).bind
    fun _ xs ys _ hs => InStep.pure fun h => ?_
  rw [hs h]

/-! ## Files of a page -/

/-- Files with one path and one type, and under a condition with alike contents. -/
structure AlikeFile (P : Pairing) (Q : Prop) (bound : Nat) (f g : PublishedFile) : Prop where
  path : f.path = g.path
  type : f.type = g.type
  content : Q → P.Alike bound f.content g.content

theorem AlikeFile.mono {Q : Prop} {a b : Nat} {f g : PublishedFile} (h : AlikeFile P Q a f g)
    (hab : a ≤ b) : AlikeFile P Q b f g :=
  ⟨h.path, h.type, fun hQ => (h.content hQ).mono hab⟩

namespace Assembly

variable {Q : Prop} {options : Options} (host : Host) (page : Page)

theorem inStep_pageDataFile? (hQ : Q → options.cacheBuster ≠ .random) :
    P.InStep place (fun bound => Option.Rel (AlikeFile P Q bound))
      (pageDataFile? host options page) (pageDataFile? host options page) := by
  unfold pageDataFile?
  cases hEmpty : (pageQuery host page).isEmpty with
  | true =>
      simp only [hEmpty, ↓reduceIte]
      exact InStep.pure .none
  | false =>
      simp only [hEmpty, Bool.false_eq_true, ↓reduceIte]
      refine (inStep_dataFile options _ _).bind fun after s t _ hst => InStep.pure ?_
      refine .some ⟨rfl, rfl, fun h => ?_⟩
      simp only [hst (hQ h)]
      exact .refl t

theorem inStep_pageContent {lang lang' : Option String} {s t : String}
    (hLang : Q → lang = lang') (hst : Q → P.Alike place s t) :
    P.InStep place (fun bound u v => Q → P.Alike bound u v) (pageContent options page lang s)
      (pageContent options page lang' t) := by
  unfold pageContent
  refine (inStep_frontMatter options page.settings _ _ _ lang lang').bind
    fun after u v hle huv => InStep.pure fun h => ?_
  exact ((huv (hLang h)).append_text _).append ((hst h).mono hle)

theorem inStep_variant {file file' : PublishedFile} (hFile : AlikeFile P Q place file file')
    {data data' : Option PublishedFile} (hData : Option.Rel (AlikeFile P Q place) data data')
    (lang : String) :
    P.InStep place (fun bound => List.Forall₂ (AlikeFile P Q bound))
      (variant options page file data lang) (variant options page file' data' lang) := by
  unfold variant
  refine (inStep_pageContent page (fun _ => rfl) hFile.content).bind
    fun after s t hle hst => InStep.pure ?_
  refine .cons ⟨congrArg (Route.withLanguage ".html" lang) hFile.path, rfl, hst⟩ ?_
  cases hData with
  | none => exact .nil
  | some h =>
      exact .cons ⟨congrArg (Route.withLanguage ".11tydata.js" lang) h.path, h.type,
        fun hQ => (h.content hQ).mono hle⟩ .nil

theorem inStep_variants {file file' : PublishedFile} {data data' : Option PublishedFile}
    (langs : List String) :
    ∀ place, AlikeFile P Q place file file' → Option.Rel (AlikeFile P Q place) data data' →
      P.InStep place (fun bound => List.Forall₂ (AlikeFile P Q bound))
        (variants options page file data langs) (variants options page file' data' langs) := by
  induction langs with
  | nil => exact fun place _ _ => InStep.pure .nil
  | cons lang langs ih =>
      intro place hFile hData
      unfold variants
      refine (inStep_variant page hFile hData lang).bind fun here fs gs hHere hFirst => ?_
      have hData' : Option.Rel (AlikeFile P Q here) data data' := by
        cases hData with
        | none => exact .none
        | some h => exact .some (h.mono hHere)
      refine (ih here (hFile.mono hHere) hData').bind fun after fs' gs' hle hRest =>
        InStep.pure (List.rel_append ?_ hRest)
      exact hFirst.imp fun _ _ h => h.mono hle

theorem inStep_pageFiles (hQ : Q → options.cacheBuster ≠ .random) {file file' : PublishedFile}
    (hFile : AlikeFile P Q place file file') :
    P.InStep place (fun bound => List.Forall₂ (AlikeFile P Q bound))
      (pageFiles host options page file) (pageFiles host options page file') := by
  unfold pageFiles
  refine (inStep_pageDataFile? host page hQ).bind fun here data data' hHere hData => ?_
  have hFile' := hFile.mono hHere
  split
  · refine (inStep_pageContent page (fun _ => rfl) hFile'.content).bind
      fun after s t hle hst => InStep.pure (.cons ⟨hFile.path, hFile.type, hst⟩ ?_)
    cases hData with
    | none => exact .nil
    | some h => exact .cons (h.mono hle) .nil
  · exact inStep_variants page _ here hFile' hData

end Assembly

end PagePress
