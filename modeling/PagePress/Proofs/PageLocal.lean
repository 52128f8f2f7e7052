import PagePress.FrontMatter
import PagePress.Markup.Rendering
import PagePress.Proofs.Steps

/-!
# Errors that are local to a page

Rendering a tree and making front matter can fail for the sake of an expression, of an element
without a tag name, or of a setting. All of these are local to the page, so the other pages are
published all the same.

## Main results

* `renderTree_raises` — what is wrong with a tree is local to its page.
* `frontMatter_raises` — so is what is wrong with its front matter.
-/

namespace PagePress

open Pass (Raises)

/-- Every error of a step is local to a page. -/
abbrev RaisesPageLocal {α : Type} (step : Pass PublishError α) : Prop :=
  Raises (fun error => error.isPageLocal = true) step

namespace Markup

theorem onExpression_raises {α : Type} (step : Pass ExpressionError α) :
    RaisesPageLocal (onExpression step) :=
  Raises.mapError fun _ => rfl

theorem renderContent_raises (element : Element) (content : String) :
    RaisesPageLocal (renderContent element content) := by
  unfold renderContent
  split
  · exact onExpression_raises _
  · exact Raises.pure _

theorem renderCondition_raises (element : Element) : RaisesPageLocal (renderCondition element) := by
  unfold renderCondition
  split
  · exact onExpression_raises _
  · exact Raises.pure _

theorem renderLoop_raises (resultType : Block.ResultType) (component : Component) :
    RaisesPageLocal (renderLoop resultType component) := by
  unfold renderLoop
  split
  · exact onExpression_raises _
  · exact Raises.pure _

theorem renderElement_raises (element : Element) (tag content : String) :
    RaisesPageLocal (renderElement element tag content) := by
  have hAttribute : ∀ state, RaisesPageLocal (renderAttribute element state) := fun state =>
    (onExpression_raises _).bind fun _ => Raises.pure _
  unfold renderElement
  cases element.unwrap with
  | true => exact Raises.pure _
  | false => exact (Raises.mapM hAttribute).bind fun _ => Raises.pure _

theorem requireTag_raises (element : Element) :
    RaisesPageLocal (Pass.ofExcept (requireTag element)) := by
  refine Raises.ofExcept fun error h => ?_
  unfold requireTag at h
  split at h
  · cases h
  · cases h
    rfl

theorem renderComponent_raises (resultType : Block.ResultType) (component : Component)
    (content fallback : String) :
    RaisesPageLocal (renderComponent resultType component content fallback) := by
  cases hDynamic : isDynamic component.element with
  | false =>
      simp only [renderComponent, hDynamic, Bool.not_false, ↓reduceIte]
      exact Raises.pure _
  | true =>
      simp only [renderComponent, hDynamic, Bool.not_true, Bool.false_eq_true, ↓reduceIte]
      refine (requireTag_raises _).bind fun tag => ?_
      refine (renderContent_raises _ _).bind fun inner => ?_
      refine (renderCondition_raises _).bind fun condition => ?_
      refine (renderLoop_raises _ _).bind fun loop => ?_
      refine (Raises.mapM fun state => onExpression_raises _).bind fun states => ?_
      exact (renderElement_raises _ _ _).bind fun body => Raises.pure _

mutual

theorem renderTree_raises (resultType : Block.ResultType) :
    ∀ component : Component, RaisesPageLocal (renderTree resultType component)
  | .node element children => by
      rw [renderTree]
      exact (renderTrees_raises resultType children).bind fun _ => renderComponent_raises _ _ _ _

theorem renderTrees_raises (resultType : Block.ResultType) :
    ∀ trees : List Component, RaisesPageLocal (renderTrees resultType trees)
  | [] => by
      rw [renderTrees]
      exact Raises.pure _
  | tree :: trees => by
      rw [renderTrees]
      exact (renderTree_raises resultType tree).bind fun _ =>
        (renderTrees_raises resultType trees).bind fun _ => Raises.pure _

end

end Markup

/-! ## Front matter -/

theorem parseSetting_error {name raw : String} {error : PublishError}
    (h : parseSetting name raw = .error error) : error.isPageLocal = true := by
  unfold parseSetting at h
  split at h
  · cases h
  · cases h
    rfl

namespace FrontMatter

theorem paginationPath_error {options : Options} {expression : Expression} {error : PublishError}
    (h : paginationPath options expression = .error error) : error.isPageLocal = true := by
  unfold paginationPath at h
  cases hPath : expression.all isPathToken with
  | false =>
      simp only [hPath, Bool.not_false, ↓reduceIte] at h
      cases h
      rfl
  | true =>
      simp only [hPath, Bool.not_true, Bool.false_eq_true, ↓reduceIte] at h
      cases hSteps : expression.path with
      | error fault =>
          rw [hSteps] at h
          cases h
          rfl
      | ok steps =>
          rw [hSteps] at h
          cases h

theorem paginationData_error {options : Options} {settings : PageSettings} {error : PublishError}
    (h : paginationData options settings = .error error) : error.isPageLocal = true := by
  unfold paginationData at h
  cases hRaw : nonBlank? settings.pageData with
  | none =>
      rw [hRaw] at h
      cases h
  | some raw =>
      rw [hRaw] at h
      simp only [bind, Except.bind] at h
      cases hParse : parseSetting ExpressionSetting.pageData.name raw with
      | error fault =>
          rw [hParse] at h
          cases h
          exact parseSetting_error hParse
      | ok setting =>
          rw [hParse] at h
          cases setting with
          | none => cases h
          | some setting =>
              cases setting with
              | text path => cases h
              | expression expression =>
                  cases hPath : paginationPath options expression with
                  | error fault =>
                      simp only [hPath] at h
                      cases h
                      exact paginationPath_error hPath
                  | ok path =>
                      simp only [hPath] at h
                      cases h

theorem permalink_raises (settings : PageSettings) (slug : String) (body : Element) :
    RaisesPageLocal (permalink settings slug body) := by
  have hPrinted : ∀ expression, RaisesPageLocal (expressionPermalink body expression) := by
    intro expression
    unfold expressionPermalink
    split
    · split
      · exact Raises.pure _
      · exact Raises.mapError fun _ => rfl
    · exact Raises.mapError fun _ => rfl
  have hOwn : RaisesPageLocal (Pass.ofExcept (ownPermalink settings)) := by
    refine Raises.ofExcept fun error h => ?_
    unfold ownPermalink at h
    split at h
    · exact parseSetting_error h
    · cases h
  unfold permalink
  refine hOwn.bind fun own => ?_
  cases own with
  | none => exact Raises.pure _
  | some setting =>
      cases setting with
      | text text => exact Raises.pure _
      | expression expression => exact (hPrinted expression).bind fun _ => Raises.pure _

end FrontMatter

theorem frontMatter_raises (options : Options) (settings : PageSettings) (slug : String)
    (body : Element) (collection lang : Option String) :
    RaisesPageLocal (frontMatter options settings slug body collection lang) := by
  unfold frontMatter
  refine (Raises.ofExcept fun _ h => FrontMatter.paginationData_error h).bind fun _ => ?_
  exact (FrontMatter.permalink_raises _ _ _).bind fun _ => Raises.pure _

end PagePress
