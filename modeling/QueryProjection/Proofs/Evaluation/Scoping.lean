import QueryProjection.Expr.ReservedNames
import QueryProjection.Expr.Substitution

set_option autoImplicit false

namespace QueryProjection

abbrev Declared := List Parameter

def Parameter.VisibleIn (param : Parameter) (declared : Declared) : Prop :=
  declared.find? (fun other => other.name == param.name) = some param

namespace Parameter

theorem visibleIn_cons {param declaration : Parameter} {declared : Declared} :
    param.VisibleIn (declaration :: declared) ↔
      declaration = param ∨ declaration.name ≠ param.name ∧ param.VisibleIn declared := by
  unfold VisibleIn
  by_cases same : declaration.name = param.name
  · have found : (declaration :: declared).find? (fun other => other.name == param.name) =
        some declaration := by simp [same]
    rw [found]
    simp [same]
  · have skipped : (declaration :: declared).find? (fun other => other.name == param.name) =
        declared.find? (fun other => other.name == param.name) := by simp [same]
    rw [skipped]
    constructor
    · intro visible
      exact .inr ⟨same, visible⟩
    · rintro (rfl | ⟨-, visible⟩)
      · exact absurd rfl same
      · exact visible

theorem mem_of_visibleIn {param : Parameter} {declared : Declared}
    (visible : param.VisibleIn declared) : param ∈ declared :=
  List.mem_of_find?_eq_some visible

end Parameter

namespace Expr

mutual

def ScopedIn (declared : Declared) : Expr → Prop
  | .source _ => True
  | .parameter param => param.VisibleIn declared
  | .constant _ _ => True
  | .member target _ _ => target.ScopedIn declared
  | .construct _ bindings => BindingsScopedIn declared bindings
  | .lambda param body => body.ScopedIn (param :: declared)
  | .call _ arguments _ => AllScopedIn declared arguments
  | .binary _ left right => left.ScopedIn declared ∧ right.ScopedIn declared
  | .negation operand => operand.ScopedIn declared
  | .conditional test whenTrue whenFalse _ =>
      test.ScopedIn declared ∧ whenTrue.ScopedIn declared ∧ whenFalse.ScopedIn declared
  | .convert operand _ => operand.ScopedIn declared
  | .function _ arguments => AllScopedIn declared arguments

def AllScopedIn (declared : Declared) : List Expr → Prop
  | [] => True
  | expr :: rest => expr.ScopedIn declared ∧ AllScopedIn declared rest

def BindingsScopedIn (declared : Declared) : List (String × Expr) → Prop
  | [] => True
  | (_, expr) :: rest => expr.ScopedIn declared ∧ BindingsScopedIn declared rest

end

mutual

def ConstructFree : Expr → Prop
  | .source _ | .parameter _ | .constant _ _ => True
  | .member target _ _ => target.ConstructFree
  | .construct _ _ => False
  | .lambda _ body => body.ConstructFree
  | .call _ arguments _ => AllConstructFree arguments
  | .binary _ left right => left.ConstructFree ∧ right.ConstructFree
  | .negation operand => operand.ConstructFree
  | .conditional test whenTrue whenFalse _ =>
      test.ConstructFree ∧ whenTrue.ConstructFree ∧ whenFalse.ConstructFree
  | .convert operand _ => operand.ConstructFree
  | .function _ arguments => AllConstructFree arguments

def AllConstructFree : List Expr → Prop
  | [] => True
  | expr :: rest => expr.ConstructFree ∧ AllConstructFree rest

end

structure StableUnderReading (holds : Expr → Prop) : Prop where
  constant : ∀ value ty, holds (.constant value ty)
  member : ∀ target name ty, holds target → holds (.member target name ty)
  binary : ∀ operator left right, holds left → holds right → holds (.binary operator left right)
  conditional : ∀ test whenTrue whenFalse ty, holds test → holds whenTrue → holds whenFalse →
    holds (.conditional test whenTrue whenFalse ty)

theorem stable_constructFree : StableUnderReading ConstructFree where
  constant _ _ := trivial
  member _ _ _ free := free
  binary _ _ _ first second := ⟨first, second⟩
  conditional _ _ _ _ first second third := ⟨first, second, third⟩

mutual

theorem ScopedIn.mono (expr : Expr) {declared declared' : Declared} (inScope : expr.ScopedIn declared)
    (more : ∀ param : Parameter, param.VisibleIn declared → param.VisibleIn declared') :
    expr.ScopedIn declared' := by
  match expr with
  | .source _ | .constant _ _ => trivial
  | .parameter param => exact more param inScope
  | .member target _ _ => exact ScopedIn.mono target inScope more
  | .construct _ bindings => exact BindingsScopedIn.mono bindings inScope more
  | .lambda param body =>
    have inBody : body.ScopedIn (param :: declared) := inScope
    -- Whatever the lambda hides is hidden in both scopes.
    refine ScopedIn.mono body inBody ?_
    intro other visible
    rw [Parameter.visibleIn_cons] at visible ⊢
    exact visible.imp_right fun ⟨apart, outside⟩ => ⟨apart, more other outside⟩
  | .call _ arguments _ => exact AllScopedIn.mono arguments inScope more
  | .binary _ left right =>
    exact ⟨ScopedIn.mono left inScope.1 more, ScopedIn.mono right inScope.2 more⟩
  | .negation operand => exact ScopedIn.mono operand inScope more
  | .conditional test whenTrue whenFalse _ =>
    exact ⟨ScopedIn.mono test inScope.1 more, ScopedIn.mono whenTrue inScope.2.1 more,
      ScopedIn.mono whenFalse inScope.2.2 more⟩
  | .convert operand _ => exact ScopedIn.mono operand inScope more
  | .function _ arguments => exact AllScopedIn.mono arguments inScope more

theorem AllScopedIn.mono (exprs : List Expr) {declared declared' : Declared}
    (inScope : AllScopedIn declared exprs)
    (more : ∀ param : Parameter, param.VisibleIn declared → param.VisibleIn declared') :
    AllScopedIn declared' exprs := by
  match exprs with
  | [] => trivial
  | expr :: rest => exact ⟨ScopedIn.mono expr inScope.1 more, AllScopedIn.mono rest inScope.2 more⟩

theorem BindingsScopedIn.mono (bindings : List (String × Expr)) {declared declared' : Declared}
    (inScope : BindingsScopedIn declared bindings)
    (more : ∀ param : Parameter, param.VisibleIn declared → param.VisibleIn declared') :
    BindingsScopedIn declared' bindings := by
  match bindings with
  | [] => trivial
  | (_, expr) :: rest =>
    exact ⟨ScopedIn.mono expr inScope.1 more, BindingsScopedIn.mono rest inScope.2 more⟩

end

mutual

theorem substitute_of_not_visible (target : Parameter) (replacement expr : Expr)
    {declared : Declared} (inScope : expr.ScopedIn declared)
    (hidden : ¬ target.VisibleIn declared) : substitute target replacement expr = expr := by
  match expr with
  | .source _ | .constant _ _ => rfl
  | .parameter param =>
    have apart : param ≠ target := by
      rintro rfl
      exact hidden inScope
    simp only [substitute, if_neg apart]
  | .member owner _ _ =>
    simp only [substitute, substitute_of_not_visible target replacement owner inScope hidden]
  | .construct _ bindings =>
    simp only [substitute,
      substituteBindings_of_not_visible target replacement bindings inScope hidden]
  | .lambda param body =>
    simp only [substitute]
    split
    next => rfl
    next apart =>
      -- A lambda that declares another parameter hides even more of what is outside.
      have inside : ¬ target.VisibleIn (param :: declared) := by
        rw [Parameter.visibleIn_cons]
        rintro (same | ⟨-, visible⟩)
        · exact apart same
        · exact hidden visible
      rw [substitute_of_not_visible target replacement body inScope inside]
  | .call _ arguments _ =>
    simp only [substitute, substituteAll_of_not_visible target replacement arguments inScope hidden]
  | .binary _ left right =>
    simp only [substitute, substitute_of_not_visible target replacement left inScope.1 hidden,
      substitute_of_not_visible target replacement right inScope.2 hidden]
  | .negation operand =>
    simp only [substitute, substitute_of_not_visible target replacement operand inScope hidden]
  | .conditional test whenTrue whenFalse _ =>
    simp only [substitute, substitute_of_not_visible target replacement test inScope.1 hidden,
      substitute_of_not_visible target replacement whenTrue inScope.2.1 hidden,
      substitute_of_not_visible target replacement whenFalse inScope.2.2 hidden]
  | .convert operand _ =>
    simp only [substitute, substitute_of_not_visible target replacement operand inScope hidden]
  | .function _ arguments =>
    simp only [substitute, substituteAll_of_not_visible target replacement arguments inScope hidden]

theorem substituteAll_of_not_visible (target : Parameter) (replacement : Expr) (exprs : List Expr)
    {declared : Declared} (inScope : AllScopedIn declared exprs)
    (hidden : ¬ target.VisibleIn declared) : substituteAll target replacement exprs = exprs := by
  match exprs with
  | [] => rfl
  | expr :: rest =>
    simp only [substituteAll, substitute_of_not_visible target replacement expr inScope.1 hidden,
      substituteAll_of_not_visible target replacement rest inScope.2 hidden]

theorem substituteBindings_of_not_visible (target : Parameter) (replacement : Expr)
    (bindings : List (String × Expr)) {declared : Declared}
    (inScope : BindingsScopedIn declared bindings) (hidden : ¬ target.VisibleIn declared) :
    substituteBindings target replacement bindings = bindings := by
  match bindings with
  | [] => rfl
  | (_, expr) :: rest =>
    simp only [substituteBindings, substitute_of_not_visible target replacement expr inScope.1 hidden,
      substituteBindings_of_not_visible target replacement rest inScope.2 hidden]

end

end Expr

end QueryProjection
