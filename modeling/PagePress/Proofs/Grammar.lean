import PagePress.Block
import PagePress.Proofs.Steps

/-!
# Expressions that compile

The check of the grammar and the statement of an expression walk its tokens in different ways. What
the check accepts is a head, then properties, then filters; for such tokens the statement can be
written down, because none of its steps fails. So compiling an expression fails with what the check
finds and with nothing else.

## Main results

* `check_eq_ok_iff` — the expressions that the check accepts.
* `statement_chain` — the statement of an accepted expression.
* `run_assignment_of_ok`, `run_assignment_of_error` — compiling takes one variable, or fails and
  takes none.
-/

namespace PagePress

namespace Expression

/-! ## Accepted expressions -/

/-- A head followed by properties and then by filters. -/
def chain (head : Token) (path : List Property) (filters : List Filter) : Expression :=
  head :: (path.map .property ++ filters.map .filter)

theorem eq_map_filter_of_isFilter {tokens : Expression}
    (h : ∀ token ∈ tokens, token.isFilter = true) :
    ∃ filters : List Filter, tokens = filters.map .filter := by
  induction tokens with
  | nil => exact ⟨[], rfl⟩
  | cons token rest ih =>
      obtain ⟨filters, rfl⟩ := ih fun other hm => h other (List.mem_cons_of_mem _ hm)
      have hToken := h token List.mem_cons_self
      cases token with
      | filter f => exact ⟨f :: filters, rfl⟩
      | property p => cases hToken
      | state s => cases hToken

/-- After the head, and before any filter, properties and then filters are accepted. -/
theorem restFault?_eq_none_iff (tokens : Expression) :
    restFault? false tokens = none ↔ ∃ (path : List Property) (filters : List Filter),
      tokens = path.map .property ++ filters.map .filter := by
  constructor
  · intro h
    induction tokens with
    | nil => exact ⟨[], [], rfl⟩
    | cons token rest ih =>
        cases token with
        | state s => cases h
        | property p =>
            obtain ⟨path, filters, rfl⟩ := ih h
            exact ⟨p :: path, filters, rfl⟩
        | filter f =>
            obtain ⟨filters, rfl⟩ := eq_map_filter_of_isFilter ((rest_filters rest).1 h)
            exact ⟨[], f :: filters, rfl⟩
  · rintro ⟨path, filters, rfl⟩
    have hFilters : restFault? true (filters.map .filter) = none := by
      rw [rest_filters]
      intro token hm
      obtain ⟨f, -, rfl⟩ := List.mem_map.1 hm
      rfl
    induction path with
    | nil =>
        cases filters with
        | nil => rfl
        | cons f rest => exact hFilters
    | cons p path ih => exact ih

theorem check_eq_ok_iff (tokens : Expression) :
    tokens.check = .ok () ↔ ∃ head path filters, head.isFilter = false ∧
      tokens = chain head path filters := by
  have hCheck : ∀ (head : Token) (rest : Expression), head.isFilter = false →
      (check (head :: rest) = .ok () ↔ restFault? false rest = none) := by
    intro head rest hHead
    cases head with
    | filter f => cases hHead
    | property p =>
        simp only [check]
        split <;> simp_all
    | state s =>
        simp only [check]
        split <;> simp_all
  constructor
  · intro h
    cases tokens with
    | nil => cases h
    | cons head rest =>
        have hHead : head.isFilter = false := by
          cases head with
          | filter f => cases h
          | property p => rfl
          | state s => rfl
        obtain ⟨path, filters, rfl⟩ :=
          (restFault?_eq_none_iff rest).1 ((hCheck head rest hHead).1 h)
        exact ⟨head, path, filters, hHead, rfl⟩
  · rintro ⟨head, path, filters, hHead, rfl⟩
    exact (hCheck head _ hHead).2 ((restFault?_eq_none_iff _).2 ⟨path, filters, rfl⟩)

/-! ## Statements of accepted expressions -/

/-- The step of a path for a property. -/
def propertyStep (p : Property) : String := if p.isFixed then quote p.fixedText else p.fieldId

/-- The first step of a path. -/
def headStep : Token → String
  | .state s => stateVariable s.componentId s.storedStateId
  | .property p => propertyStep p
  | .filter _ => ""

/-- The statement of a head, a path and filters. -/
def chainStatement (head : Token) (path : List Property) (filters : List Filter)
    (variableName receiver : String) : String :=
  "assign " ++ variableName ++ " = " ++ receiverPrefix receiver ++
    ".".intercalate (headStep head :: path.map propertyStep) ++ filterChain filters

theorem pathSteps_properties {head : Token} (hHead : head.isFilter = false)
    (path : List Property) :
    pathSteps (head :: path.map .property) = .ok (headStep head :: path.map propertyStep) := by
  have hFirst : pathStep (head :: path.map .property) true head = .ok (headStep head) := by
    cases head with
    | filter f => cases hHead
    | property p => rfl
    | state s => rfl
  have hOthers : (path.map Token.property).mapM (pathStep (head :: path.map .property) false) =
      .ok (path.map propertyStep) := by
    rw [List.mapM_map]
    exact List.mapM_pure
  rw [pathSteps, hFirst, hOthers]
  rfl

/-- With a head the statement is its filters and its path. -/
theorem statement_cons {head : Token} (hHead : head.isFilter = false) (rest : Expression)
    (variableName receiver : String) :
    statement (head :: rest) variableName receiver = (do
      let filters ← ((head :: rest).dropWhile fun token => !token.isFilter).mapM
        (asFilter (head :: rest))
      let steps ← path ((head :: rest).takeWhile fun token => !token.isFilter)
      return "assign " ++ variableName ++ " = " ++ receiverPrefix receiver ++ steps ++
        filterChain filters) := by
  cases head with
  | filter f => cases hHead
  | property p => unfold statement; rfl
  | state s => unfold statement; rfl

/-- The path of a chain ends where its filters start. -/
theorem split_chain {head : Token} (hHead : head.isFilter = false) (path : List Property)
    (filters : List Filter) :
    (chain head path filters).takeWhile (fun token => !token.isFilter) =
        head :: path.map .property ∧
      (chain head path filters).dropWhile (fun token => !token.isFilter) =
        filters.map .filter := by
  have hTokens : chain head path filters =
      (head :: path.map .property) ++ filters.map .filter := rfl
  have hPath : ∀ token ∈ head :: path.map Token.property, (!token.isFilter) = true := by
    intro token hm
    rcases List.mem_cons.1 hm with rfl | hm
    · rw [hHead]
      rfl
    · obtain ⟨p, -, rfl⟩ := List.mem_map.1 hm
      rfl
  rw [hTokens, List.takeWhile_append_of_pos hPath, List.dropWhile_append_of_pos hPath]
  cases filters with
  | nil => exact ⟨List.append_nil _, rfl⟩
  | cons f rest => exact ⟨List.append_nil _, rfl⟩

/-- No step of the statement of an accepted expression fails. -/
theorem statement_chain {head : Token} (hHead : head.isFilter = false) (path : List Property)
    (filters : List Filter) (variableName receiver : String) :
    statement (chain head path filters) variableName receiver =
      .ok (chainStatement head path filters variableName receiver) := by
  obtain ⟨hTake, hDrop⟩ := split_chain hHead path filters
  have hFilters : (filters.map Token.filter).mapM (asFilter (chain head path filters)) =
      .ok filters := by
    rw [List.mapM_map]
    exact List.mapM_pure.trans (congrArg Except.ok (List.map_id filters))
  have hStatement := statement_cons hHead (path.map .property ++ filters.map .filter)
    variableName receiver
  rw [chain] at hTake hDrop hFilters ⊢
  rw [hStatement, hTake, hDrop, hFilters, Expression.path, pathSteps_properties hHead]
  rfl

end Expression

/-! ## Compiling an expression -/

theorem run_assignment_of_error (element : Element) {expression : Expression}
    {error : ExpressionError} (h : expression.check = .error error) (context : Context) :
    (assignment element expression).runIn context = (.error error, context) := by
  rw [assignment, Pass.runIn_bind, Pass.runIn_ofExcept, h]

theorem run_assignment_of_ok (element : Element) {head : Token} (hHead : head.isFilter = false)
    (path : List Property) (filters : List Filter) (context : Context) :
    (assignment element (.chain head path filters)).runIn context =
      (.ok ⟨variableName element.id context.nextVariable,
          Expression.chainStatement head path filters
            (variableName element.id context.nextVariable)
            (Expression.receiver context.globalSources (.chain head path filters))⟩,
        { context with nextVariable := context.nextVariable + 1 }) := by
  have hCheck : (Expression.chain head path filters).check = .ok () :=
    (Expression.check_eq_ok_iff _).2 ⟨head, path, filters, hHead, rfl⟩
  simp only [assignment, Pass.runIn_bind, Pass.runIn_ofExcept, hCheck, Pass.runIn_get,
    run_freshVariable, Expression.statement_chain hHead, Pass.runIn_pure]

end PagePress
