import QueryProjection.Proofs.Evaluation.Scoping

set_option autoImplicit false

namespace QueryProjection

def SequenceMethod.refinesOrder (method : SequenceMethod) : Bool :=
  method.isOrdering && !method.startsOrder

structure FreeUse where
  param : Parameter
  around : List Parameter
  refined : Bool
  deriving DecidableEq

def FreeUse.below (param : Parameter) (use : FreeUse) : FreeUse :=
  { use with around := param :: use.around }

namespace Expr

def refinedUses (method : SequenceMethod) : List Expr → List FreeUse
  | .parameter param :: _ => if method.refinesOrder then [⟨param, [], true⟩] else []
  | _ => []

mutual

/-- A lambda declares the name of its parameter, whatever the type. -/
def freeUses : Expr → List FreeUse
  | .source _ => []
  | .parameter param => [⟨param, [], false⟩]
  | .constant _ _ => []
  | .member target _ _ => target.freeUses
  | .construct _ bindings => bindingFreeUses bindings
  | .lambda param body =>
      (body.freeUses.filter fun use => use.param.name != param.name).map (FreeUse.below param)
  | .call method arguments _ => refinedUses method arguments ++ allFreeUses arguments
  | .binary _ left right => left.freeUses ++ right.freeUses
  | .negation operand => operand.freeUses
  | .conditional test whenTrue whenFalse _ =>
      test.freeUses ++ (whenTrue.freeUses ++ whenFalse.freeUses)
  | .convert operand _ => operand.freeUses
  | .function _ arguments => allFreeUses arguments

def allFreeUses : List Expr → List FreeUse
  | [] => []
  | expr :: rest => expr.freeUses ++ allFreeUses rest

def bindingFreeUses : List (String × Expr) → List FreeUse
  | [] => []
  | (_, expr) :: rest => expr.freeUses ++ bindingFreeUses rest

end

def freeNames (expr : Expr) : List String :=
  expr.freeUses.map fun use => use.param.name

theorem mem_freeUses_lambda {param : Parameter} {body : Expr} {use : FreeUse}
    (isUse : use ∈ body.freeUses) (apart : use.param.name ≠ param.name) :
    use.below param ∈ (lambda param body).freeUses := by
  simp only [freeUses]
  exact List.mem_map_of_mem (List.mem_filter.2 ⟨isUse, by simpa using apart⟩)

theorem apart_of_mem_freeUses_lambda {param : Parameter} {body : Expr} {use : FreeUse}
    (isUse : use ∈ (lambda param body).freeUses) : use.param.name ≠ param.name := by
  simp only [freeUses] at isUse
  obtain ⟨inner, isInner, rfl⟩ := List.mem_map.1 isUse
  have apart := (List.mem_filter.1 isInner).2
  rwa [bne_iff_ne] at apart

theorem mem_refinedUses {method : SequenceMethod} {arguments : List Expr} {use : FreeUse} :
    use ∈ refinedUses method arguments ↔
      ∃ param rest, arguments = .parameter param :: rest ∧ method.refinesOrder = true ∧
        use = ⟨param, [], true⟩ := by
  constructor
  · intro isUse
    unfold refinedUses at isUse
    split at isUse
    next param rest =>
      split at isUse
      next refines => exact ⟨param, rest, rfl, refines, List.mem_singleton.1 isUse⟩
      next => simp at isUse
    next => simp at isUse
  · rintro ⟨param, rest, rfl, refines, rfl⟩
    simp [refinedUses, refines]

theorem allFreeUses_subset (method : SequenceMethod) (arguments : List Expr) (ty : DataType) :
    allFreeUses arguments ⊆ (call method arguments ty).freeUses := by
  simp only [freeUses]
  exact List.subset_append_right _ _

mutual

theorem ScopedIn.visible (expr : Expr) {declared : Declared} (inScope : expr.ScopedIn declared) :
    ∀ use ∈ expr.freeUses, use.param.VisibleIn declared := by
  match expr with
  | .source _ | .constant _ _ => simp [freeUses]
  | .parameter param =>
    simp only [freeUses, List.forall_mem_singleton]
    exact inScope
  | .member target _ _ => exact ScopedIn.visible target inScope
  | .construct _ bindings => exact BindingsScopedIn.visible bindings inScope
  | .lambda param body =>
    intro use isUse
    -- A use that leaves the lambda does not have the name of its parameter, so the lambda hides
    -- nothing.
    have apart := apart_of_mem_freeUses_lambda isUse
    simp only [freeUses] at isUse
    obtain ⟨inner, isInner, rfl⟩ := List.mem_map.1 isUse
    have visible := ScopedIn.visible body inScope inner (List.mem_filter.1 isInner).1
    rcases Parameter.visibleIn_cons.1 visible with same | ⟨-, outside⟩
    · exact absurd (congrArg Parameter.name same).symm apart
    · exact outside
  | .call method arguments _ =>
    simp only [freeUses, List.forall_mem_append]
    refine ⟨?_, AllScopedIn.visible arguments inScope⟩
    intro use isUse
    obtain ⟨param, rest, rfl, -, rfl⟩ := mem_refinedUses.1 isUse
    exact inScope.1
  | .binary _ left right =>
    exact List.forall_mem_append.2
      ⟨ScopedIn.visible left inScope.1, ScopedIn.visible right inScope.2⟩
  | .negation operand => exact ScopedIn.visible operand inScope
  | .conditional test whenTrue whenFalse _ =>
    exact List.forall_mem_append.2 ⟨ScopedIn.visible test inScope.1, List.forall_mem_append.2
      ⟨ScopedIn.visible whenTrue inScope.2.1, ScopedIn.visible whenFalse inScope.2.2⟩⟩
  | .convert operand _ => exact ScopedIn.visible operand inScope
  | .function _ arguments => exact AllScopedIn.visible arguments inScope

theorem AllScopedIn.visible (exprs : List Expr) {declared : Declared}
    (inScope : AllScopedIn declared exprs) :
    ∀ use ∈ allFreeUses exprs, use.param.VisibleIn declared := by
  match exprs with
  | [] => simp [allFreeUses]
  | expr :: rest =>
    exact List.forall_mem_append.2
      ⟨ScopedIn.visible expr inScope.1, AllScopedIn.visible rest inScope.2⟩

theorem BindingsScopedIn.visible (bindings : List (String × Expr)) {declared : Declared}
    (inScope : BindingsScopedIn declared bindings) :
    ∀ use ∈ bindingFreeUses bindings, use.param.VisibleIn declared := by
  match bindings with
  | [] => simp [bindingFreeUses]
  | (_, expr) :: rest =>
    exact List.forall_mem_append.2
      ⟨ScopedIn.visible expr inScope.1, BindingsScopedIn.visible rest inScope.2⟩

end

end Expr

end QueryProjection
