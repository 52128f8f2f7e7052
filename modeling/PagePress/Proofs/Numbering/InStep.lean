import PagePress.Proofs.Numbering.Pattern
import PagePress.Proofs.Steps

/-!
# Steps that differ in numbers only

Two runs of a pass from different counters are compared step by step. A pairing holds the numberings
of both runs and what a pass never changes. Two steps are in step when, from contexts at one place
of the numberings, they fail with the same error or give related results, and leave the contexts at
one place again, not before the first: both took the same number of variables.

Relations between results take the place at which both runs stand, because what a result may
mention is what was taken up to there.

## Main results

* `InStep.bind` — steps in sequence are in step when each is.
* `InStep.freshVariable` — a fresh variable is the one taken at the place of both runs.
* `InStep.fault?_eq` — whether and how a step fails does not depend on the context in its pass.
-/

namespace PagePress

/-- Two runs of one pass: what the pass never changes, and the numbering of each run. -/
structure Pairing where
  sources : List String
  buildId : UInt32
  first : Numbering
  second : Numbering

namespace Pairing

/-- Texts of the two runs that differ in numbers only. -/
abbrev Alike (P : Pairing) : Nat → String → String → Prop :=
  PagePress.Alike P.first P.second

/-- A context of a pass at a place of a numbering: the variables to come get the numbers of the
places to come. -/
structure At (P : Pairing) (ν : Numbering) (place : Nat) (context : Context) : Prop where
  next : ∀ i, ν (place + i) = context.nextVariable + i
  sources : context.globalSources = P.sources
  buildId : context.buildId = P.buildId

/-- How two runs end: both with related results or both with one error, at one place. -/
inductive Agree (P : Pairing) {ε α β : Type} (R : Nat → α → β → Prop) (place : Nat) :
    Except ε α × Context → Except ε β × Context → Prop
  | ok {a : α} {b : β} {c d : Context} {after : Nat} (le : place ≤ after)
      (first : P.At P.first after c) (second : P.At P.second after d) (related : R after a b) :
      Agree P R place (.ok a, c) (.ok b, d)
  | error {e : ε} {c d : Context} {after : Nat} (le : place ≤ after)
      (first : P.At P.first after c) (second : P.At P.second after d) :
      Agree P R place (.error e, c) (.error e, d)

/-- Steps that agree from all contexts at a place. -/
def InStep (P : Pairing) {ε α β : Type} (place : Nat) (R : Nat → α → β → Prop)
    (m : Pass ε α) (n : Pass ε β) : Prop :=
  ∀ c d, P.At P.first place c → P.At P.second place d → P.Agree R place (m.runIn c) (n.runIn d)

variable {P : Pairing} {ε ε' α α' β β' : Type} {place : Nat}

theorem Agree.of_le {R : Nat → α → β → Prop} {later : Nat} (hle : place ≤ later)
    {x : Except ε α × Context} {y : Except ε β × Context} (h : P.Agree R later x y) :
    P.Agree R place x y := by
  cases h with
  | ok le first second related => exact .ok (Nat.le_trans hle le) first second related
  | error le first second => exact .error (Nat.le_trans hle le) first second

namespace InStep

variable {R : Nat → α → α' → Prop} {S : Nat → β → β' → Prop}

theorem pure {a : α} {b : α'} (h : R place a b) :
    P.InStep place R (Pure.pure a : Pass ε α) (Pure.pure b) :=
  fun _ _ hc hd => .ok (Nat.le_refl place) hc hd h

theorem bind {m : Pass ε α} {n : Pass ε α'} {f : α → Pass ε β} {g : α' → Pass ε β'}
    (h : P.InStep place R m n)
    (hNext : ∀ after a b, place ≤ after → R after a b → P.InStep after S (f a) (g b)) :
    P.InStep place S (m >>= f) (n >>= g) := by
  intro c d hc hd
  have hAgree := h c d hc hd
  rw [Pass.runIn_bind, Pass.runIn_bind]
  cases hm : m.runIn c with | mk x c' =>
  cases hn : n.runIn d with | mk y d' =>
  rw [hm, hn] at hAgree
  cases hAgree with
  | ok le first second related =>
      exact (hNext _ _ _ le related c' d' first second).of_le le
  | error le first second => exact .error le first second

theorem ofExcept_map (result : Except ε α) {f : α → β} {g : α → β'}
    (h : ∀ a, S place (f a) (g a)) :
    P.InStep place S (Pass.ofExcept (result.map f)) (Pass.ofExcept (result.map g)) := by
  intro c d hc hd
  cases result with
  | ok a => exact .ok (Nat.le_refl place) hc hd (h a)
  | error e => exact .error (Nat.le_refl place) hc hd

theorem ofExcept (result : Except ε α) :
    P.InStep place (fun _ a b => a = b) (Pass.ofExcept result) (Pass.ofExcept result) := by
  intro c d hc hd
  cases result with
  | ok a => exact .ok (Nat.le_refl place) hc hd rfl
  | error e => exact .error (Nat.le_refl place) hc hd

theorem mapError {m : Pass ε α} {n : Pass ε α'} (f : ε → ε') (h : P.InStep place R m n) :
    P.InStep place R (m.mapError f) (n.mapError f) := by
  intro c d hc hd
  have hAgree := h c d hc hd
  rw [Pass.runIn_mapError, Pass.runIn_mapError]
  cases hm : m.runIn c with | mk x c' =>
  cases hn : n.runIn d with | mk y d' =>
  rw [hm, hn] at hAgree
  cases hAgree with
  | ok le first second related => exact .ok le first second related
  | error le first second => exact .error le first second

/-- The contexts that both runs see have the same data sources and build. -/
theorem get :
    P.InStep place (fun _ c d => c.globalSources = d.globalSources ∧ c.buildId = d.buildId)
      (MonadState.get : Pass ε Context) MonadState.get :=
  fun _ _ hc hd => .ok (Nat.le_refl place) hc hd
    ⟨hc.sources.trans hd.sources.symm, hc.buildId.trans hd.buildId.symm⟩

theorem freshVariable (elementId : String) :
    P.InStep place P.Alike (PagePress.freshVariable (ε := ε) elementId)
      (PagePress.freshVariable elementId) := by
  have hMove : ∀ (ν : Numbering) (c : Context), P.At ν place c →
      P.At ν (place + 1) { c with nextVariable := c.nextVariable + 1 } := by
    intro ν c hc
    refine ⟨fun i => ?_, hc.sources, hc.buildId⟩
    have hNext := hc.next (1 + i)
    rw [Nat.add_assoc, hNext, Nat.add_assoc]
  intro c d hc hd
  rw [run_freshVariable, run_freshVariable]
  refine .ok (Nat.le_succ place) (hMove _ _ hc) (hMove _ _ hd) ?_
  have hFirst : P.first place = c.nextVariable := hc.next 0
  have hSecond : P.second place = d.nextVariable := hd.next 0
  rw [← hFirst, ← hSecond]
  exact Alike.slot elementId (Nat.lt_succ_self place)

/-- Steps over a list are in step when the steps over its items are, and what relates results goes
on relating them later. -/
theorem mapM {f : β → Pass ε α} {g : β → Pass ε α'}
    (hMono : ∀ i j a b, i ≤ j → R i a b → R j a b) (values : List β)
    (h : ∀ value ∈ values, ∀ after, P.InStep after R (f value) (g value)) :
    ∀ place, P.InStep place (fun after => List.Forall₂ (R after)) (values.mapM f)
      (values.mapM g) := by
  induction values with
  | nil => exact fun place => InStep.pure .nil
  | cons value rest ih =>
      intro place
      have hRest := ih fun other hm => h other (List.mem_cons_of_mem _ hm)
      rw [List.mapM_cons, List.mapM_cons]
      refine (h value List.mem_cons_self place).bind fun middle a b _ hab => ?_
      refine (hRest middle).bind fun after as bs hle hs => ?_
      exact InStep.pure (.cons (hMono _ _ _ _ hle hab) hs)

end InStep

end Pairing

/-! ## Contexts of one pass -/

/-- A context that a pass comes to after another one. -/
structure Context.Follows (next context : Context) : Prop where
  sources : next.globalSources = context.globalSources
  buildId : next.buildId = context.buildId
  counter : context.nextVariable ≤ next.nextVariable

namespace Context.Follows

theorem refl (context : Context) : context.Follows context :=
  ⟨rfl, rfl, Nat.le_refl _⟩

theorem trans {a b c : Context} (hab : a.Follows b) (hbc : b.Follows c) : a.Follows c :=
  ⟨hab.sources.trans hbc.sources, hab.buildId.trans hbc.buildId,
    Nat.le_trans hbc.counter hab.counter⟩

end Context.Follows

namespace Pairing

variable {ε α β : Type} {R : Nat → α → β → Prop}

/-- Two contexts of a pass, compared from the variables that they take next. -/
def ofContexts (first second : Context) : Pairing where
  sources := first.globalSources
  buildId := first.buildId
  first := (first.nextVariable + ·)
  second := (second.nextVariable + ·)

theorem at_ofContexts_first (c d : Context) :
    (ofContexts c d).At (ofContexts c d).first 0 c :=
  ⟨fun i => congrArg (c.nextVariable + ·) (Nat.zero_add i), rfl, rfl⟩

theorem at_ofContexts_second {c d : Context} (h : d.Follows c) :
    (ofContexts c d).At (ofContexts c d).second 0 d :=
  ⟨fun i => congrArg (d.nextVariable + ·) (Nat.zero_add i), h.sources, h.buildId⟩

/-- Steps in step fail alike in all contexts of a pass. -/
theorem InStep.fault?_eq {m : Pass ε α} {n : Pass ε β} {c d : Context} (hcd : d.Follows c)
    (h : (ofContexts c d).InStep 0 R m n) : n.fault? d = m.fault? c := by
  have hAgree := h c d (at_ofContexts_first c d) (at_ofContexts_second hcd)
  cases hm : m.runIn c with | mk x c' =>
  cases hn : n.runIn d with | mk y d' =>
  rw [hm, hn] at hAgree
  cases hAgree with
  | ok _ _ _ _ => rw [Pass.fault?_of_ok hm, Pass.fault?_of_ok hn]
  | error _ _ _ => rw [Pass.fault?_of_error hm, Pass.fault?_of_error hn]

/-- A step in step with another one leads to a later context of its pass. -/
theorem InStep.follows {m : Pass ε α} {n : Pass ε β} {c : Context}
    (h : (ofContexts c c).InStep 0 R m n) : (m.runIn c).2.Follows c := by
  have hAt : ∀ (after : Nat) (next : Context),
      (ofContexts c c).At (ofContexts c c).first after next → next.Follows c := by
    intro after next hNext
    have hPlace : c.nextVariable + (after + 0) = next.nextVariable + 0 := hNext.next 0
    exact ⟨hNext.sources, hNext.buildId, by omega⟩
  have hAgree := h c c (at_ofContexts_first c c) (at_ofContexts_second (.refl c))
  cases hm : m.runIn c with | mk x c' =>
  cases hn : n.runIn c with | mk y d' =>
  rw [hm, hn] at hAgree
  cases hAgree with
  | ok _ hFirst _ _ => exact hAt _ _ hFirst
  | error _ hFirst _ => exact hAt _ _ hFirst

end Pairing

end PagePress
