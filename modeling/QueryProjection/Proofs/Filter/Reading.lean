import QueryProjection.Proofs.Evaluation.Guards
import QueryProjection.Proofs.Filter.Binding
import QueryProjection.Proofs.Value.Json

set_option autoImplicit false

namespace QueryProjection

open Outcome Evaluation

variable {binder : Binder} {rows : List Value} {scope : Scope} {row value : Value} {ty : DataType}

theorem Value.IsOf.readMember {schema : Schema} {typeName segment : String} {member : MemberDecl}
    (once : schema.DeclaresOnce) (isOf : IsOf schema ty value) (present : value ≠ .null)
    (named : ty.nonNull = .named typeName)
    (resolved : schema.resolve typeName segment = .ok member) (whole : Expr) :
    ∃ held, Evaluation.readMember value member.name whole = .ok held ∧
      value.field? segment = some held ∧ IsOf schema member.ty held := by
  rcases isOf.record named with null_ | ⟨declared, fields, listed, rfl, areFields⟩
  · exact absurd null_ present
  have isMember := Schema.lists_of_resolve once listed resolved
  obtain ⟨held, isField, isOfMember⟩ := areFields.field_of_mem isMember
  have unique := areFields.unique (Schema.members_unique listed)
  refine ⟨held, ?_, ?_, isOfMember⟩
  · simp only [Evaluation.readMember,
      Value.findField_of_sameName unique isField (Text.sameName_refl member.name)]
  · exact Value.findField_of_sameName unique isField (Schema.sameName_of_resolve resolved)

theorem Binder.memberSteps_reads (once : binder.schema.DeclaresOnce)
    (propagates : binder.context.nullPropagation = true) {path : String} {previous : Option String}
    {guards : List Expr} {current expr : Expr} {segments : List String}
    (reads : binder.memberSteps path previous guards current segments = .ok expr)
    (evaluated : eval rows scope (Expr.unlessNull guards current) = .ok value)
    (isOf : Value.IsOf binder.schema current.type value)
    (entered : previous = none → guards = [] ∧ value ≠ .null)
    (computed : current.isConstant = false) :
    eval rows scope expr = .ok (value.along segments) ∧ expr.isConstant = false ∧
      ∃ ty, ty.nonNull = expr.type.nonNull ∧ Value.IsOf binder.schema ty (value.along segments) := by
  induction segments generalizing previous guards current value with
  | nil =>
    simp only [memberSteps, Except.ok.injEq] at reads
    subst reads
    refine ⟨evaluated, ?_, current.type, (Expr.type_unlessNull guards current).symm, isOf⟩
    cases guards with
    | nil => exact computed
    | cons guard rest => rfl
  | cons segment rest ih =>
    obtain ⟨typeName, member, -, named, resolved, reads⟩ := Binder.memberSteps_cons reads
    rw [Expr.eval_unlessNull] at evaluated
    let read := Expr.member current member.name member.ty
    -- The next value is read from this one, or null like this one.
    by_cases present : value = .null
    · subst present
      cases previous with
      | none => exact absurd rfl (entered rfl).2
      | some previous =>
        simp only [Option.isSome_some, propagates, Bool.and_self, if_true] at reads
        refine ih reads ?_ (Value.isOf_null _ _) (by simp) rfl
        simp only [Expr.eval_unlessNull, List.map_append, List.map_singleton, guarded_append,
          evaluated, ok_bind]
        rfl
    · obtain ⟨held, isRead, isField, isOfMember⟩ :=
        isOf.readMember once present named resolved read
      have isCurrent : eval rows scope current = .ok value := by
        rcases guarded_eq_ok evaluated with null_ | same
        · exact absurd null_ present
        · exact same
      have isNext : eval rows scope read = .ok held := by
        simp only [read, eval, isCurrent, ok_bind]
        exact isRead
      have isAlong : value.along (segment :: rest) = held.along rest := by
        simp [Value.along, isField]
      rw [isAlong]
      cases previous with
      | none =>
        obtain ⟨rfl, -⟩ := entered rfl
        simp only [Option.isSome_none, Bool.false_and, Bool.false_eq_true, if_false] at reads
        exact ih reads isNext isOfMember (by simp) rfl
      | some previous =>
        simp only [Option.isSome_some, propagates, Bool.and_self, if_true] at reads
        refine ih reads ?_ isOfMember (by simp) rfl
        simp only [Expr.eval_unlessNull, List.map_append, List.map_singleton, guarded_append,
          evaluated, ok_bind, Value.isNull_of_ne_null present, Bool.false_eq_true, if_false]
        exact isNext

end QueryProjection
