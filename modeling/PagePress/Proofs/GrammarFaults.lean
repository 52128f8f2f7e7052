import Mathlib.Data.List.TakeWhile
import PagePress.Proofs.Grammar

/-!
# Faults of expressions

The grammar of expressions is tested twice, and in two ways. The check reads the tokens from left to
right and stops at the first one that may not stand where it stands. The statement cuts the tokens
at the first filter, goes through what is behind it, and then through the path before it. Both
accept the same expressions. They find different faults only where there is one on either side of
the first filter, as the statement looks behind it first.

## Main results

* `restFault?_eq_some_iff` — the check finds the first token that offends.
* `faultKind?_check`, `faultKind?_statement` — both in terms of the two sides of the first filter.
* `grammar_shared` — what the check and the statement accept, and what each of them finds.
-/

namespace PagePress

namespace ExpressionError

/-- The kind of the error of a result, when it is one. -/
def faultKind? {α : Type} : Except ExpressionError α → Option Kind
  | .ok _ => none
  | .error error => some error.kind

variable {α β : Type}

theorem faultKind?_eq_none_iff {result : Except ExpressionError α} :
    faultKind? result = none ↔ ∃ value, result = .ok value := by
  cases result with
  | ok value => simp [faultKind?]
  | error error => simp [faultKind?]

/-- Of two results in sequence the second one matters when the first one has no fault. -/
theorem faultKind?_bind {first : Except ExpressionError α} {second : α → Except ExpressionError β}
    {other : Option Kind} (h : ∀ value, faultKind? (second value) = other) :
    faultKind? (first >>= second) = (faultKind? first).or other := by
  cases first with
  | ok value => exact h value
  | error error => rfl

/-- The fault of several results is the first one. -/
theorem faultKind?_mapM (f : α → Except ExpressionError β) (values : List α) :
    faultKind? (values.mapM f) = values.findSome? fun value => faultKind? (f value) := by
  induction values with
  | nil => rfl
  | cons value rest ih =>
      have hRest : faultKind? (rest.mapM f >>= fun others => pure others) =
          rest.findSome? fun value => faultKind? (f value) := by
        rw [bind_pure]
        exact ih
      rw [List.mapM_cons, List.findSome?_cons]
      cases hFirst : f value with
      | error error => rfl
      | ok first =>
          have hRun : faultKind? (rest.mapM f >>= fun others => pure (first :: others)) =
              (faultKind? (rest.mapM f)).or none := faultKind?_bind fun _ => rfl
          rw [Option.or_none, ih] at hRun
          exact hRun

end ExpressionError

namespace Expression

open ExpressionError

variable {before rest tokens : Expression} {token head : Token} {kind other : ExpressionError.Kind}

/-! ## Tokens that offend -/

/-- A token may not stand behind some tokens: it is no filter and comes behind one, or it is a state
and comes behind properties and states only. -/
inductive Offends : Expression → Token → ExpressionError.Kind → Prop
  | behindFilter {before : Expression} {token : Token}
      (hBefore : ∃ filter ∈ before, filter.isFilter = true) (hToken : token.isFilter = false) :
      Offends before token .propertyAfterFilter
  | lateState {before : Expression} {s : StateRef} (hSome : before ≠ [])
      (hBefore : ∀ other ∈ before, other.isFilter = false) :
      Offends before (.state s) .misplacedState

/-- The token at a position may not stand behind the tokens before it. -/
def OffendsAt (tokens : Expression) (position : Nat) (kind : ExpressionError.Kind) : Prop :=
  ∃ token, tokens[position]? = some token ∧ Offends (tokens.take position) token kind

/-- No token before a position offends. -/
def CleanBefore (tokens : Expression) (position : Nat) : Prop :=
  ∀ earlier < position, ∀ kind, ¬ OffendsAt tokens earlier kind

/-- The first token that may not stand where it stands has a kind of fault. -/
def FirstOffence (tokens : Expression) (kind : ExpressionError.Kind) : Prop :=
  ∃ position, OffendsAt tokens position kind ∧ CleanBefore tokens position

/-- The fault of an expression that breaks the grammar. -/
inductive Fault : Expression → ExpressionError.Kind → Prop
  | empty : Fault [] .emptyExpression
  | leadingFilter (f : Filter) (rest : Expression) : Fault (.filter f :: rest) .leadingFilter
  | offence {head : Token} {rest : Expression} {kind : ExpressionError.Kind}
      (hHead : head.isFilter = false) (h : FirstOffence (head :: rest) kind) :
      Fault (head :: rest) kind

/-- Whether there is a filter among tokens. -/
def hasFilter (tokens : Expression) : Bool := tokens.any Token.isFilter

theorem hasFilter_iff : hasFilter before = true ↔ ∃ filter ∈ before, filter.isFilter = true :=
  List.any_eq_true

theorem hasFilter_eq_false_iff :
    hasFilter before = false ↔ ∀ other ∈ before, other.isFilter = false := by
  simp [hasFilter]

theorem not_offends_filter (f : Filter) : ¬ Offends before (.filter f) kind := by
  rintro ⟨_, hToken⟩
  cases hToken

theorem offends_property_iff (p : Property) : Offends before (.property p) kind ↔
    hasFilter before = true ∧ kind = .propertyAfterFilter := by
  constructor
  · rintro ⟨hBefore, -⟩
    exact ⟨hasFilter_iff.2 hBefore, rfl⟩
  · rintro ⟨hBefore, rfl⟩
    exact .behindFilter (hasFilter_iff.1 hBefore) rfl

theorem offends_state_iff (s : StateRef) (hSome : before ≠ []) : Offends before (.state s) kind ↔
    kind = if hasFilter before then .propertyAfterFilter else .misplacedState := by
  constructor
  · rintro (⟨hFilter, -⟩ | ⟨-, hNone⟩)
    · rw [hasFilter_iff.2 hFilter, if_pos rfl]
    · rw [hasFilter_eq_false_iff.2 hNone, if_neg Bool.false_ne_true]
  · rintro rfl
    cases hFilter : hasFilter before with
    | true => exact .behindFilter (hasFilter_iff.1 hFilter) rfl
    | false => exact .lateState hSome (hasFilter_eq_false_iff.1 hFilter)

/-- The head of an expression may be any token but a filter. -/
theorem not_offends_head : ¬ Offends [] token kind := by
  rintro (⟨⟨filter, hMem, -⟩, -⟩ | ⟨hSome, -⟩)
  · cases hMem
  · exact hSome rfl

theorem Offends.unique (h : Offends before token kind) (hOther : Offends before token other) :
    kind = other := by
  cases token with
  | filter f => exact absurd h (not_offends_filter f)
  | property p =>
      rw [((offends_property_iff p).1 h).2, ((offends_property_iff p).1 hOther).2]
  | state s =>
      have hSome : before ≠ [] := by
        rintro rfl
        exact not_offends_head h
      rw [(offends_state_iff s hSome).1 h, (offends_state_iff s hSome).1 hOther]

/-! ## The check -/

theorem offendsAt_length_iff :
    OffendsAt (before ++ token :: rest) before.length kind ↔ Offends before token kind := by
  simp [OffendsAt]

/-- Behind tokens without a fault the first token that offends decides. -/
theorem firstOffence_iff_of_offends (hClean : CleanBefore (before ++ token :: rest) before.length)
    (h : Offends before token other) :
    FirstOffence (before ++ token :: rest) kind ↔ kind = other := by
  have hHere : OffendsAt (before ++ token :: rest) before.length other :=
    offendsAt_length_iff.2 h
  constructor
  · rintro ⟨position, ⟨found, hFound, hOffends⟩, hFirst⟩
    have hPosition : position = before.length := by
      rcases Nat.lt_trichotomy position before.length with hLess | hSame | hMore
      · exact absurd ⟨found, hFound, hOffends⟩ (hClean position hLess kind)
      · exact hSame
      · exact absurd hHere (hFirst _ hMore other)
    subst hPosition
    exact (offendsAt_length_iff.1 ⟨found, hFound, hOffends⟩).unique h
  · rintro rfl
    exact ⟨before.length, hHere, hClean⟩

theorem CleanBefore.next (hClean : CleanBefore (before ++ token :: rest) before.length)
    (h : ∀ kind, ¬ Offends before token kind) :
    CleanBefore ((before ++ [token]) ++ rest) (before ++ [token]).length := by
  intro earlier hEarlier kind
  rw [List.append_assoc, List.singleton_append]
  rw [List.length_append, List.length_singleton] at hEarlier
  rcases Nat.lt_or_eq_of_le (Nat.le_of_lt_succ hEarlier) with hLess | rfl
  · exact hClean earlier hLess kind
  · exact fun hOffends => h kind (offendsAt_length_iff.1 hOffends)

theorem not_firstOffence (hClean : CleanBefore tokens tokens.length) :
    ¬ FirstOffence tokens kind := by
  rintro ⟨position, ⟨token, hToken, hOffends⟩, -⟩
  obtain ⟨hInside, -⟩ := List.getElem?_eq_some_iff.1 hToken
  exact hClean position hInside kind ⟨token, hToken, hOffends⟩

/-- The check finds the first token that offends. The induction is on the tokens that are left, and
what was read before them has no fault. -/
theorem restFault?_eq_some_iff (hSome : before ≠ [])
    (hClean : CleanBefore (before ++ rest) before.length) :
    restFault? (hasFilter before) rest = some kind ↔ FirstOffence (before ++ rest) kind := by
  induction rest generalizing before with
  | nil =>
      rw [List.append_nil] at hClean ⊢
      exact iff_of_false (by rintro ⟨⟩) (not_firstOffence hClean)
  | cons token rest ih =>
      have hNext : ∀ filtered, hasFilter (before ++ [token]) = filtered →
          (∀ kind, ¬ Offends before token kind) →
          (restFault? filtered rest = some kind ↔
            FirstOffence (before ++ token :: rest) kind) := by
        rintro _ rfl hNone
        have hBefore : before ++ [token] ≠ [] := by simp
        have hRest := ih hBefore (hClean.next hNone)
        rwa [List.append_assoc, List.singleton_append] at hRest
      cases token with
      | filter f =>
          exact hNext true (by simp [hasFilter, Token.isFilter]) fun _ => not_offends_filter f
      | state s =>
          rw [firstOffence_iff_of_offends hClean ((offends_state_iff s hSome).2 rfl), restFault?]
          cases hasFilter before <;> simp [eq_comm]
      | property p =>
          rw [restFault?]
          cases hFilter : hasFilter before with
          | true =>
              have hOffends := (offends_property_iff p).2 ⟨hFilter, rfl⟩
              rw [firstOffence_iff_of_offends hClean hOffends]
              simp [eq_comm]
          | false =>
              refine hNext false (by simpa [hasFilter, Token.isFilter] using hFilter) fun _ h => ?_
              rw [offends_property_iff, hFilter] at h
              cases h.1

/-! ## The two sides of the first filter -/

/-- Whether a token is a state. -/
def isState : Token → Bool
  | .state _ => true
  | _ => false

/-- The tokens before the first filter. -/
def upToFilter (tokens : Expression) : Expression := tokens.takeWhile fun token => !token.isFilter

/-- The first filter and the tokens behind it. -/
def fromFilter (tokens : Expression) : Expression := tokens.dropWhile fun token => !token.isFilter

theorem isFilter_of_mem_upToFilter (h : token ∈ upToFilter tokens) : token.isFilter = false := by
  simpa using List.mem_takeWhile_imp h

/-- The fault of tokens that are not all filters. -/
def behindFault? (tokens : Expression) : Option ExpressionError.Kind :=
  if tokens.all Token.isFilter then none else some .propertyAfterFilter

/-- The fault of the steps of a path after its head. -/
def pathFault? (tokens : Expression) : Option ExpressionError.Kind :=
  if tokens.any isState then some .misplacedState else none

theorem restFault?_true (tokens : Expression) : restFault? true tokens = behindFault? tokens := by
  induction tokens with
  | nil => rfl
  | cons token rest ih =>
      cases token with
      | filter f => exact ih
      | property p => rfl
      | state s => rfl

/-- The check looks at the path before it looks behind the first filter. -/
theorem restFault?_false (tokens : Expression) :
    restFault? false tokens =
      (pathFault? (upToFilter tokens)).or (behindFault? (fromFilter tokens)) := by
  induction tokens with
  | nil => rfl
  | cons token rest ih =>
      cases token with
      | filter f => exact restFault?_true rest
      | property p => exact ih
      | state s => rfl

/-- The fault that the check finds behind the head. -/
theorem faultKind?_check (hHead : head.isFilter = false) (rest : Expression) :
    faultKind? (check (head :: rest)) = restFault? false rest := by
  have hKinds : restFault? false rest = none ∨
      restFault? false rest = some .propertyAfterFilter ∨
      restFault? false rest = some .misplacedState := by
    rw [restFault?_false, pathFault?, behindFault?]
    cases (upToFilter rest).any isState <;> cases (fromFilter rest).all Token.isFilter <;> decide
  cases head with
  | filter f => cases hHead
  | property p => obtain h | h | h := hKinds <;> simp only [check, h] <;> rfl
  | state s => obtain h | h | h := hKinds <;> simp only [check, h] <;> rfl

theorem findSome?_asFilter (whole tokens : Expression) :
    tokens.findSome? (fun token => faultKind? (asFilter whole token)) = behindFault? tokens := by
  induction tokens with
  | nil => rfl
  | cons token rest ih =>
      cases token with
      | filter f => exact ih
      | property p => rfl
      | state s => rfl

theorem findSome?_pathStep (whole : Expression) {tokens : Expression}
    (h : ∀ token ∈ tokens, token.isFilter = false) :
    tokens.findSome? (fun token => faultKind? (pathStep whole false token)) =
      pathFault? tokens := by
  induction tokens with
  | nil => rfl
  | cons token rest ih =>
      obtain ⟨hToken, hRest⟩ := List.forall_mem_cons.1 h
      cases token with
      | filter f => cases hToken
      | property p => exact ih hRest
      | state s => rfl

/-- The fault of a path is that of the steps after its head. -/
theorem faultKind?_path (hHead : head.isFilter = false) {rest : Expression}
    (hRest : ∀ token ∈ rest, token.isFilter = false) :
    faultKind? (path (head :: rest)) = pathFault? rest := by
  have hFirst : ∃ first, pathStep (head :: rest) true head = .ok first := by
    cases head with
    | filter f => cases hHead
    | property p => exact ⟨_, rfl⟩
    | state s => exact ⟨_, rfl⟩
  obtain ⟨first, hFirst⟩ := hFirst
  have hSteps : faultKind? (pathSteps (head :: rest)) = pathFault? rest := by
    have hRun : faultKind? (rest.mapM (pathStep (head :: rest) false) >>= fun others =>
          pure (first :: others)) =
        (faultKind? (rest.mapM (pathStep (head :: rest) false))).or none :=
      faultKind?_bind fun _ => rfl
    rw [Option.or_none, faultKind?_mapM, findSome?_pathStep _ hRest] at hRun
    rw [pathSteps, hFirst]
    exact hRun
  rw [← hSteps, path]
  cases pathSteps (head :: rest) <;> rfl

/-- The statement looks behind the first filter before it goes through the path. -/
theorem faultKind?_statement (hHead : head.isFilter = false) (rest : Expression)
    (variableName receiver : String) :
    faultKind? (statement (head :: rest) variableName receiver) =
      (behindFault? (fromFilter rest)).or (pathFault? (upToFilter rest)) := by
  have hSides : (head :: rest).dropWhile (fun token => !token.isFilter) = fromFilter rest ∧
      (head :: rest).takeWhile (fun token => !token.isFilter) = head :: upToFilter rest := by
    simp [hHead, fromFilter, upToFilter]
  have hPath : faultKind? (path (head :: upToFilter rest)) = pathFault? (upToFilter rest) :=
    faultKind?_path hHead fun _ => isFilter_of_mem_upToFilter
  have hFilters : faultKind? ((fromFilter rest).mapM (asFilter (head :: rest))) =
      behindFault? (fromFilter rest) := by
    rw [faultKind?_mapM, findSome?_asFilter]
  rw [statement_cons hHead, hSides.1, hSides.2, ← hFilters, ← hPath]
  refine faultKind?_bind fun filters => ?_
  rw [← Option.or_none (o := faultKind? (path _))]
  exact faultKind?_bind fun _ => rfl

/-! ## Faults on both sides -/

/-- Tokens with a fault on either side of the first filter: a state behind the head and before that
filter, and something that is no filter behind it. -/
def FaultyOnBothSides (tokens : Expression) : Prop :=
  ∃ head path f behind, tokens = head :: (path ++ .filter f :: behind) ∧
    (∀ token ∈ head :: path, token.isFilter = false) ∧
    (∃ s, .state s ∈ path) ∧ ∃ token ∈ behind, token.isFilter = false

theorem pathFault?_eq (tokens : Expression) : (∃ s, .state s ∈ tokens) ∧
      pathFault? tokens = some .misplacedState ∨
    (¬ ∃ s, .state s ∈ tokens) ∧ pathFault? tokens = none := by
  have hState : tokens.any isState = true ↔ ∃ s, .state s ∈ tokens := by
    rw [List.any_eq_true]
    constructor
    · rintro ⟨token, hMem, hIs⟩
      cases token with
      | state s => exact ⟨s, hMem⟩
      | property p => cases hIs
      | filter f => cases hIs
    · rintro ⟨s, hMem⟩
      exact ⟨_, hMem, rfl⟩
  rw [← hState, pathFault?]
  cases tokens.any isState <;> simp

theorem behindFault?_eq (tokens : Expression) : (∃ token ∈ tokens, token.isFilter = false) ∧
      behindFault? tokens = some .propertyAfterFilter ∨
    (¬ ∃ token ∈ tokens, token.isFilter = false) ∧ behindFault? tokens = none := by
  have hOther : tokens.all Token.isFilter = false ↔ ∃ token ∈ tokens, token.isFilter = false := by
    simp
  rw [← hOther, behindFault?]
  cases tokens.all Token.isFilter <;> simp

theorem faultyOnBothSides_iff (hHead : head.isFilter = false) (rest : Expression) :
    FaultyOnBothSides (head :: rest) ↔ (∃ s, .state s ∈ upToFilter rest) ∧
      ∃ token ∈ fromFilter rest, token.isFilter = false := by
  constructor
  · rintro ⟨_, path, f, behind, hTokens, hNone, hState, token, hToken, hOther⟩
    obtain ⟨rfl, rfl⟩ := List.cons.inj hTokens
    have hPath : ∀ token ∈ path, (!token.isFilter) = true := fun token hm => by
      rw [hNone token (List.mem_cons_of_mem _ hm)]
      rfl
    have hUpTo : upToFilter (path ++ .filter f :: behind) = path := by
      rw [upToFilter, List.takeWhile_append_of_pos hPath]
      exact List.append_nil path
    have hFrom : fromFilter (path ++ .filter f :: behind) = .filter f :: behind := by
      rw [fromFilter, List.dropWhile_append_of_pos hPath]
      rfl
    rw [hUpTo, hFrom]
    exact ⟨hState, token, List.mem_cons_of_mem _ hToken, hOther⟩
  · rintro ⟨hState, token, hToken, hOther⟩
    have hSides : upToFilter rest ++ fromFilter rest = rest := List.takeWhile_append_dropWhile
    cases hFrom : fromFilter rest with
    | nil =>
        rw [hFrom] at hToken
        cases hToken
    | cons first behind =>
        have hFirst := List.head?_dropWhile_not (fun token : Token => !token.isFilter) rest
        rw [← fromFilter, hFrom] at hFirst
        cases first with
        | property p => cases hFirst
        | state s => cases hFirst
        | filter f =>
            rw [hFrom] at hToken hSides
            have hPath : ∀ token ∈ head :: upToFilter rest, token.isFilter = false :=
              List.forall_mem_cons.2 ⟨hHead, fun _ => isFilter_of_mem_upToFilter⟩
            refine ⟨head, upToFilter rest, f, behind, by rw [hSides], hPath, hState, token, ?_,
              hOther⟩
            rcases List.mem_cons.1 hToken with rfl | hMem
            · cases hOther
            · exact hMem

/-! ## Both tests -/

/-- The check finds the fault of an expression. -/
theorem faultKind?_check_eq_some_iff (tokens : Expression) (kind : ExpressionError.Kind) :
    faultKind? tokens.check = some kind ↔ Fault tokens kind := by
  cases tokens with
  | nil =>
      constructor
      · rintro ⟨⟩
        exact .empty
      · rintro ⟨⟩
        rfl
  | cons head rest =>
      cases hHead : head.isFilter with
      | true =>
          cases head with
          | property p => cases hHead
          | state s => cases hHead
          | filter f =>
              constructor
              · rintro ⟨⟩
                exact .leadingFilter f rest
              · rintro (_ | _ | ⟨hNot, _⟩)
                · rfl
                · cases hNot
      | false =>
          have hClean : CleanBefore ([head] ++ rest) [head].length := by
            intro earlier hEarlier kind
            obtain rfl : earlier = 0 := Nat.lt_one_iff.1 hEarlier
            rintro ⟨token, -, hOffends⟩
            exact not_offends_head hOffends
          have hRest : restFault? (hasFilter [head]) rest = some kind ↔
              FirstOffence ([head] ++ rest) kind :=
            restFault?_eq_some_iff (List.cons_ne_nil head []) hClean
          rw [show hasFilter [head] = false by simp [hasFilter, hHead], List.singleton_append,
            ← faultKind?_check hHead] at hRest
          rw [hRest]
          constructor
          · exact .offence hHead
          · rintro (_ | _ | ⟨_, hFirst⟩)
            · cases hHead
            · exact hFirst

/-- Behind a head the two tests differ only where there is a fault on both sides. -/
theorem faults_of_head (hHead : head.isFilter = false) (rest : Expression)
    (variableName receiver : String) :
    FaultyOnBothSides (head :: rest) ∧ faultKind? (check (head :: rest)) = some .misplacedState ∧
        faultKind? (statement (head :: rest) variableName receiver) = some .propertyAfterFilter ∨
      ¬ FaultyOnBothSides (head :: rest) ∧
        faultKind? (statement (head :: rest) variableName receiver) =
          faultKind? (check (head :: rest)) := by
  rw [faultKind?_check hHead, restFault?_false, faultKind?_statement hHead,
    faultyOnBothSides_iff hHead]
  rcases pathFault?_eq (upToFilter rest) with ⟨hState, hPath⟩ | ⟨hState, hPath⟩ <;>
    rcases behindFault?_eq (fromFilter rest) with ⟨hOther, hBehind⟩ | ⟨hOther, hBehind⟩ <;>
    simp [hState, hPath, hOther, hBehind]

/-- The statement finds what the check finds, unless there is a fault on both sides. -/
theorem faults_of_both (tokens : Expression) (variableName receiver : String) :
    FaultyOnBothSides tokens ∧ faultKind? tokens.check = some .misplacedState ∧
        faultKind? (statement tokens variableName receiver) = some .propertyAfterFilter ∨
      ¬ FaultyOnBothSides tokens ∧
        faultKind? (statement tokens variableName receiver) = faultKind? tokens.check := by
  cases tokens with
  | nil => exact .inr ⟨by rintro ⟨_, _, _, _, ⟨⟩, _⟩, rfl⟩
  | cons head rest =>
      cases head with
      | property p => exact faults_of_head rfl rest variableName receiver
      | state s => exact faults_of_head rfl rest variableName receiver
      | filter f =>
          refine .inr ⟨?_, rfl⟩
          rintro ⟨_, path, _, _, hTokens, hNone, -⟩
          obtain ⟨rfl, -⟩ := List.cons.inj hTokens
          cases hNone _ List.mem_cons_self

/-- The check accepts a property or a state, then properties, then filters. In any other expression
it finds that there is no token, that the first one is a filter, or else the first token that
offends. The statement of an expression succeeds for the same expressions, whatever its variable and
its receiver are. When both fail they find the same kind of fault, but for an expression with a
fault on either side of its first filter: there the check finds the state, and the statement what
comes after the filter. -/
theorem grammar_shared (tokens : Expression) (variableName receiver : String) :
    (tokens.check = .ok () ↔ ∃ head path filters, head.isFilter = false ∧
      tokens = chain head path filters) ∧
    (∀ kind, faultKind? tokens.check = some kind ↔ Fault tokens kind) ∧
    ((∃ source, statement tokens variableName receiver = .ok source) ↔ tokens.check = .ok ()) ∧
    (FaultyOnBothSides tokens ∧ faultKind? tokens.check = some .misplacedState ∧
        faultKind? (statement tokens variableName receiver) = some .propertyAfterFilter ∨
      ¬ FaultyOnBothSides tokens ∧
        faultKind? (statement tokens variableName receiver) = faultKind? tokens.check) := by
  have hAccepts : tokens.check = .ok () ↔ faultKind? tokens.check = none := by
    rw [faultKind?_eq_none_iff]
    exact ⟨fun h => ⟨(), h⟩, fun ⟨_, h⟩ => h⟩
  have hBoth := faults_of_both tokens variableName receiver
  refine ⟨check_eq_ok_iff tokens, faultKind?_check_eq_some_iff tokens, ?_, hBoth⟩
  rw [hAccepts, ← faultKind?_eq_none_iff]
  rcases hBoth with ⟨-, hCheck, hStatement⟩ | ⟨-, hSame⟩
  · rw [hCheck, hStatement]
    exact iff_of_false (Option.some_ne_none _) (Option.some_ne_none _)
  · rw [hSame]

end Expression

end PagePress
