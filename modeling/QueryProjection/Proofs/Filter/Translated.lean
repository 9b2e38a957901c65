import QueryProjection.Proofs.Filter.Built
import QueryProjection.Proofs.Evaluation.Agreement

set_option autoImplicit false

namespace QueryProjection

open Outcome Evaluation

def Mapping.Commutes (mapping : Mapping) (related : Value → Value → Prop)
    (rows records : List Value) (expr : Expr) : Prop :=
  ∃ mapped, mapping.toSource expr = .ok mapped ∧ ∀ row record, related row record →
    Agree (eval records [(elementName, record)] expr) (eval rows [(elementName, row)] mapped)

namespace Binder

variable {binder : Binder} {paths : List String} {mapping : Mapping}
  {related : Value → Value → Prop} {rows records : List Value}

theorem Built.commutes {expr : Expr} (built : binder.Built paths expr)
    (reads : ∀ path ∈ paths, ∀ read, binder.memberPath path = .ok read →
      mapping.Commutes related rows records read) :
    mapping.Commutes related rows records expr := by
  induction built with
  | path stands bound => exact reads _ stands _ bound
  | constant value ty =>
    refine ⟨.constant value (mapping.typeToSource ty), by simp only [Mapping.toSource],
      fun row record _ => ?_⟩
    simp only [eval]
    exact .refl _
  | binary operator _ _ first second =>
    obtain ⟨left, isLeft, sameLeft⟩ := first
    obtain ⟨right, isRight, sameRight⟩ := second
    -- Every node is translated to the same node over its translated operands.
    refine ⟨.binary operator left right, by simp only [Mapping.toSource, isLeft, isRight, ok_bind]; rfl,
      fun row record isRelated => ?_⟩
    exact eval_binary_agree operator (sameLeft row record isRelated) (sameRight row record isRelated)
  | negation _ inner =>
    obtain ⟨operand, isOperand, same⟩ := inner
    refine ⟨.negation operand, by simp only [Mapping.toSource, isOperand, ok_bind]; rfl,
      fun row record isRelated => ?_⟩
    simp only [eval]
    exact Agree.bind (same row record isRelated) fun value => .refl _
  | conditional ty _ _ _ first second third =>
    obtain ⟨test, isTest, sameTest⟩ := first
    obtain ⟨whenTrue, isTrue, sameTrue⟩ := second
    obtain ⟨whenFalse, isFalse, sameFalse⟩ := third
    refine ⟨.conditional test whenTrue whenFalse (mapping.typeToSource ty),
      by simp only [Mapping.toSource, isTest, isTrue, isFalse, ok_bind]; rfl,
      fun row record isRelated => ?_⟩
    exact eval_conditional_agree _ _ (sameTest row record isRelated) (sameTrue row record isRelated)
      (sameFalse row record isRelated)
  | unary called _ inner =>
    obtain ⟨target, isTarget, same⟩ := inner
    refine ⟨.function called [target],
      by simp only [Mapping.toSource, Mapping.allToSource, isTarget, ok_bind]; rfl,
      fun row record isRelated => ?_⟩
    simp only [eval, evalAll]
    refine Agree.bind ?_ fun values => .refl _
    exact Agree.bind (same row record isRelated) fun value => .refl _
  | pair called _ _ first second =>
    obtain ⟨target, isTarget, sameTarget⟩ := first
    obtain ⟨argument, isArgument, sameArgument⟩ := second
    refine ⟨.function called [target, argument],
      by simp only [Mapping.toSource, Mapping.allToSource, isTarget, isArgument, ok_bind]; rfl,
      fun row record isRelated => ?_⟩
    simp only [eval, evalAll]
    refine Agree.bind ?_ fun values => .refl _
    refine Agree.bind (sameTarget row record isRelated) fun value => Agree.bind ?_ fun values => .refl _
    exact Agree.bind (sameArgument row record isRelated) fun value => .refl _

end Binder

end QueryProjection
