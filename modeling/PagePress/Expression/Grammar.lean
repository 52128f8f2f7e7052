import PagePress.Expression.Error

/-!
# The grammar of expressions

An expression is a property or a state, then properties, then filters. The check walks the tokens
once and stops at the first token that may not stand where it stands.

## Main results

* `rest_filters` — after a filter exactly the filters are accepted.
-/

namespace PagePress.Expression

/-- The kind of the first fault among the tokens after the first, where `filtered` tells whether a
filter came before them. -/
def restFault? (filtered : Bool) : Expression → Option ExpressionError.Kind
  | [] => none
  | .filter _ :: rest => restFault? true rest
  | .state _ :: _ => if filtered then some .propertyAfterFilter else some .misplacedState
  | .property _ :: rest =>
    if filtered then some .propertyAfterFilter else restFault? false rest

/-- Accepts an expression that follows the grammar. -/
def check (tokens : Expression) : Except ExpressionError Unit :=
  match tokens with
  | [] => .error .empty
  | .filter _ :: _ =>
    .error ((ExpressionError.leadingFilter tokens).withHelp
      "Start the expression with a property or a state")
  | _ :: rest =>
    match restFault? false rest with
    | none => .ok ()
    | some .propertyAfterFilter =>
      .error ((ExpressionError.propertyAfterFilter tokens).withHelp
        "Move the filters to the end of the expression")
    | some _ => .error (ExpressionError.misplacedState tokens)

theorem rest_filters (tokens : Expression) :
    restFault? true tokens = none ↔ ∀ token ∈ tokens, token.isFilter = true := by
  induction tokens with
  | nil => simp [restFault?]
  | cons token rest ih => cases token <;> simp [restFault?, Token.isFilter, ih]

end PagePress.Expression
