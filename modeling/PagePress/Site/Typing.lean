import PagePress.Block
import PagePress.Site.Basic

/-!
# Result types

What is known about the value of an expression. A property has its own field. A state has the shape
that is forced on it, or else the field of the expression that is published under it; the current
item of a loop is an object of the list looped over. A filter changes the shape of what comes before
it. States may refer to states, up to a depth at which the search gives up.

## Main results

* `fieldAfter_append` — an expression is typed token by token.
-/

namespace PagePress

/-! ## Filters -/

/-- Filters that give a scalar. -/
def scalarFilters : List String := ["size", "join", "json", "date", "strip_html"]

/-- Filters that give a list. -/
def listFilters : List String :=
  ["where", "where_exp", "sort", "sort_natural", "reverse", "uniq", "compact", "map", "concat",
    "split"]

/-- Filters that give an item of a list. -/
def itemFilters : List String := ["first", "last"]

/-- The shape that a filter makes of a shape. -/
def filteredKind (filterId : String) (kind : Kind) : Kind :=
  if itemFilters.contains filterId && kind = .list then .object
  else if scalarFilters.contains filterId then .scalar
  else if listFilters.contains filterId then .list
  else kind

/-! ## Tokens -/

/-- The field of a state whose shape is forced. -/
def StateRef.forcedField (s : StateRef) (kind : Kind) : Field where
  id := s.storedStateId
  label := (Token.state s).label
  typeIds := []
  kind := kind
  dataSourceId := none

/-- The field of a property. -/
def Property.field (p : Property) : Field :=
  ⟨p.fieldId, p.label, p.typeIds, p.kind, p.dataSourceId⟩

/-- The field after a token, where `lookUp` types the states whose shape is not forced. -/
def fieldAfterToken (lookUp : StateRef → Option Field) (current : Option Field) :
    Token → Option Field
  | .property p => some p.field
  | .state s =>
    match s.forceKind with
    | some kind => some (s.forcedField kind)
    | none => lookUp s
  | .filter f => current.map fun field => { field with kind := filteredKind f.id field.kind }

/-- The field after tokens; each must have one. -/
def fieldAfter (lookUp : StateRef → Option Field) : Option Field → Expression → Option Field
  | current, [] => current
  | current, token :: rest =>
    match fieldAfterToken lookUp current token with
    | some field => fieldAfter lookUp (some field) rest
    | none => none

theorem fieldAfter_append (lookUp : StateRef → Option Field) (current : Option Field)
    (first rest : Expression) (h : first ≠ []) :
    fieldAfter lookUp current (first ++ rest) =
      (fieldAfter lookUp current first).bind fun field => fieldAfter lookUp (some field) rest := by
  induction first generalizing current with
  | nil => exact absurd rfl h
  | cons token others ih =>
    simp only [List.cons_append, fieldAfter]
    cases fieldAfterToken lookUp current token with
    | none => rfl
    | some field =>
      cases others with
      | nil => simp [fieldAfter]
      | cons next others => exact ih (some field) (by simp)

namespace Site

/-! ## States -/

/-- The expression that is published under a state of a component: of its public states or else of
its private ones. -/
def publishedExpression? (element : Element) (stateId : String) : Option Expression :=
  ((element.publicState? stateId).or (element.privateState? stateId)).map StoredState.expression

/-- The field of a state, where `resolve` types the expression behind it. -/
def stateField? (site : Site) (resolve : Expression → Option Field) (s : StateRef) :
    Option Field := do
  let component ← site.component? s.componentId
  if s.storedStateId = Block.loopState then
    let state ← component.element.privateState? Block.loopState
    let field ← resolve state.expression
    return { field with kind := .object }
  else
    resolve (← publishedExpression? component.element s.storedStateId)

/-- How many states may refer to each other in a row. -/
def stateDepth : Nat := 16

/-- The field of an expression behind which at most `depth` states refer to each other, one less
than the fuel. -/
def resolve (site : Site) : Nat → Expression → Option Field
  | 0, _ => none
  | depth + 1, expression => fieldAfter (site.stateField? (site.resolve depth)) none expression

/-- What is known about the value of an expression. -/
def resultType (site : Site) (expression : Expression) : Option Field :=
  site.resolve (stateDepth + 1) expression

end Site

end PagePress
