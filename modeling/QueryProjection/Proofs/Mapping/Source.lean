import QueryProjection.Mapping.Source
import QueryProjection.Proofs.Expr.Places

set_option autoImplicit false

namespace QueryProjection

open Outcome

namespace Expr.StableUnderReading

variable {holds : Expr → Prop} (stable : StableUnderReading holds)

include stable

theorem equalsNull {operand : Expr} (isOperand : holds operand) : holds operand.equalsNull :=
  stable.binary _ _ _ isOperand (stable.constant _ _)

theorem unlessNull {guards : List Expr} {expr : Expr} (areGuards : ∀ guard ∈ guards, holds guard)
    (isExpr : holds expr) : holds (Expr.unlessNull guards expr) := by
  cases guards with
  | nil => exact isExpr
  | cons first rest =>
    have test : ∀ (others : List Expr) (start : Expr), (∀ guard ∈ others, holds guard) →
        holds start → holds
          (others.foldl (fun test guard => .binary .orElse test guard.equalsNull) start) := by
      intro others
      induction others with
      | nil => exact fun start _ isStart => isStart
      | cons other others ih =>
        intro start areOthers isStart
        obtain ⟨isOther, areOthers⟩ := List.forall_mem_cons.1 areOthers
        exact ih _ areOthers (stable.binary _ _ _ isStart (stable.equalsNull isOther))
    obtain ⟨isFirst, areRest⟩ := List.forall_mem_cons.1 areGuards
    exact stable.conditional _ _ _ _ (test rest _ areRest (stable.equalsNull isFirst))
      (stable.constant _ _) isExpr

variable {mapping : Mapping}

theorem readSame {source expr : Expr} {member : String} (isSource : holds source)
    (reads : mapping.readSame source member = .ok expr) : holds expr := by
  unfold Mapping.readSame at reads
  split at reads
  next =>
    simp only [bind_eq_ok, pure_eq_ok] at reads
    obtain ⟨found, -, rfl⟩ := reads
    exact stable.member _ _ _ isSource
  next => simp [Mapping.cannotRead] at reads

theorem readSteps {guards : List Expr} {current expr : Expr} {names : List String}
    (areGuards : ∀ guard ∈ guards, holds guard) (isCurrent : holds current)
    (reads : mapping.readSteps guards current names = .ok expr) : holds expr := by
  induction names generalizing guards current with
  | nil =>
    simp only [Mapping.readSteps, Except.ok.injEq] at reads
    exact reads ▸ stable.unlessNull areGuards isCurrent
  | cons name rest ih =>
    simp only [Mapping.readSteps, bind_eq_ok] at reads
    obtain ⟨next, first, reads⟩ := reads
    refine ih ?_ (stable.readSame isCurrent first) reads
    intro guard member
    rcases List.mem_append.1 member with earlier | last
    · exact areGuards guard earlier
    · exact List.mem_singleton.1 last ▸ isCurrent

theorem readPath {source expr : Expr} {names : List String} (isSource : holds source)
    (reads : mapping.readPath source names = .ok expr) : holds expr := by
  cases names with
  | nil =>
    simp only [Mapping.readPath, Except.ok.injEq] at reads
    exact reads ▸ isSource
  | cons name rest =>
    simp only [Mapping.readPath, bind_eq_ok] at reads
    obtain ⟨next, first, reads⟩ := reads
    exact stable.readSteps (by simp) (stable.readSame isSource first) reads

theorem readMapped {source expr : Expr} {modelType member : String} (isSource : holds source)
    (reads : mapping.readMapped modelType member source = .ok expr) : holds expr := by
  unfold Mapping.readMapped at reads
  split at reads
  next => exact stable.readPath isSource reads
  next => simp at reads
  next => exact stable.readSame isSource reads

end Expr.StableUnderReading

namespace Mapping

variable (mapping : Mapping)

theorem visibleIn_parameterToSource {param : Parameter} {declared : Declared}
    (visible : param.VisibleIn declared) :
    (mapping.parameterToSource param).VisibleIn (declared.map mapping.parameterToSource) := by
  unfold Parameter.VisibleIn at visible ⊢
  rw [List.find?_map]
  exact congrArg (Option.map mapping.parameterToSource) visible

structure CarriesRules {Place Place' : Type} (rules : PlaceRules Place) (rules' : PlaceRules Place')
    (related : Place → Place' → Prop) : Prop where
  reads : ∀ {place place' param}, related place place' → rules.reads place param →
    rules'.reads place' (mapping.parameterToSource param)
  opens : ∀ {place place' param inside}, related place place' → rules.opens place param inside →
    ∃ inside', rules'.opens place' (mapping.parameterToSource param) inside' ∧ related inside inside'

section Carried

variable {mapping} {Place Place' : Type} {rules : PlaceRules Place} {rules' : PlaceRules Place'}
  {related : Place → Place' → Prop}

mutual

theorem toSource_obeys (carries : mapping.CarriesRules rules rules' related) (expr : Expr)
    {mapped : Expr} {place : Place} {place' : Place'} (same : related place place')
    (obeys : expr.Obeys rules place) (translated : mapping.toSource expr = .ok mapped) :
    mapped.Obeys rules' place' := by
  match expr with
  | .source _ | .constant _ _ =>
    simp only [toSource, Except.ok.injEq] at translated
    subst translated
    trivial
  | .parameter _ =>
    simp only [toSource, Except.ok.injEq] at translated
    subst translated
    exact carries.reads same obeys
  | .member target name _ =>
    simp only [toSource] at translated
    split at translated
    next =>
      obtain ⟨source, first, reads⟩ := bind_eq_ok.1 translated
      have obeysTarget : target.Obeys rules place := obeys
      have obeysSource := toSource_obeys carries target same obeysTarget first
      -- Members are read by steps, guards and constants, which obey any rules.
      exact (Expr.stable_obeys _ _).readMapped obeysSource reads
    next => simp [cannotRead] at translated
  | .construct _ _ => simp [toSource] at translated
  | .lambda _ body =>
    simp only [toSource, bind_eq_ok, pure_eq_ok] at translated
    obtain ⟨inner, first, rfl⟩ := translated
    obtain ⟨inside, opens, inBody⟩ := obeys
    obtain ⟨inside', opens', sameInside⟩ := carries.opens same opens
    exact ⟨inside', opens', toSource_obeys carries body sameInside inBody first⟩
  | .call _ arguments _ | .function _ arguments =>
    simp only [toSource, bind_eq_ok, pure_eq_ok] at translated
    obtain ⟨inner, all, rfl⟩ := translated
    have obey : Expr.AllObey rules place arguments := obeys
    exact allToSource_obey carries arguments same obey all
  | .negation operand | .convert operand _ =>
    simp only [toSource, bind_eq_ok, pure_eq_ok] at translated
    obtain ⟨inner, first, rfl⟩ := translated
    have obeysOperand : operand.Obeys rules place := obeys
    have obeysInner := toSource_obeys carries operand same obeysOperand first
    exact obeysInner
  | .binary _ left right =>
    simp only [toSource, bind_eq_ok, pure_eq_ok] at translated
    obtain ⟨first, isFirst, second, isSecond, rfl⟩ := translated
    exact ⟨toSource_obeys carries left same obeys.1 isFirst,
      toSource_obeys carries right same obeys.2 isSecond⟩
  | .conditional test whenTrue whenFalse _ =>
    simp only [toSource, bind_eq_ok, pure_eq_ok] at translated
    obtain ⟨first, isFirst, second, isSecond, third, isThird, rfl⟩ := translated
    exact ⟨toSource_obeys carries test same obeys.1 isFirst,
      toSource_obeys carries whenTrue same obeys.2.1 isSecond,
      toSource_obeys carries whenFalse same obeys.2.2 isThird⟩

theorem allToSource_obey (carries : mapping.CarriesRules rules rules' related) (exprs : List Expr)
    {mapped : List Expr} {place : Place} {place' : Place'} (same : related place place')
    (obey : Expr.AllObey rules place exprs) (translated : mapping.allToSource exprs = .ok mapped) :
    Expr.AllObey rules' place' mapped := by
  match exprs with
  | [] =>
    simp only [allToSource, Except.ok.injEq] at translated
    subst translated
    trivial
  | expr :: rest =>
    simp only [allToSource, bind_eq_ok, pure_eq_ok] at translated
    obtain ⟨first, isFirst, others, areOthers, rfl⟩ := translated
    exact ⟨toSource_obeys carries expr same obey.1 isFirst,
      allToSource_obey carries rest same obey.2 areOthers⟩

end

end Carried

theorem carries_scopeRules : mapping.CarriesRules Expr.scopeRules Expr.scopeRules
    fun declared declared' => declared' = declared.map mapping.parameterToSource where
  reads := by
    rintro declared _ param rfl visible
    exact mapping.visibleIn_parameterToSource visible
  opens := by
    rintro declared _ param _ rfl rfl
    exact ⟨_, rfl, rfl⟩

theorem carries_freeRules {Place : Type} (rules : PlaceRules Place) :
    mapping.CarriesRules rules Expr.freeRules fun _ _ => True where
  reads _ _ := trivial
  opens _ _ := ⟨(), trivial, trivial⟩

theorem toSource_spec (expr : Expr) {mapped : Expr} {declared : Declared}
    (inScope : expr.ScopedIn declared) (translated : mapping.toSource expr = .ok mapped) :
    mapped.ScopedIn (declared.map mapping.parameterToSource) ∧ mapped.ConstructFree := by
  have obeys := (Expr.obeys_scopeRules expr).2 inScope
  constructor
  · exact (Expr.obeys_scopeRules mapped).1
      (toSource_obeys mapping.carries_scopeRules expr rfl obeys translated)
  · exact (Expr.obeys_freeRules mapped).1
      (toSource_obeys (mapping.carries_freeRules _) expr trivial obeys translated)

theorem predicateToSource_eq_ok {mapping : Mapping} {predicate mapped : Lambda} {sourceType : String}
    (translated : mapping.predicateToSource predicate sourceType = .ok mapped) :
    mapping.lambdaToSource predicate = .ok mapped ∧
      mapped.parameter.ty.typeName? = some sourceType := by
  simp only [predicateToSource, bind_eq_ok] at translated
  obtain ⟨other, isMapped, accepted⟩ := translated
  split at accepted
  next typed =>
    rw [pure_eq_ok] at accepted
    subst accepted
    exact ⟨isMapped, typed⟩
  next => simp at accepted

end Mapping

end QueryProjection
