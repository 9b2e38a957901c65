import QueryProjection.Proofs.Evaluation.Renaming

set_option autoImplicit false

namespace QueryProjection

structure PlaceRules (Place : Type) where
  reads : Place → Parameter → Prop
  constructs : Place → Prop
  opens : Place → Parameter → Place → Prop

namespace Expr

variable {Place Place' : Type}

mutual

def Obeys (rules : PlaceRules Place) (place : Place) : Expr → Prop
  | .source _ => True
  | .parameter param => rules.reads place param
  | .constant _ _ => True
  | .member target _ _ => target.Obeys rules place
  | .construct _ bindings => rules.constructs place ∧ BindingsObey rules place bindings
  | .lambda param body => ∃ inside, rules.opens place param inside ∧ body.Obeys rules inside
  | .call _ arguments _ => AllObey rules place arguments
  | .binary _ left right => left.Obeys rules place ∧ right.Obeys rules place
  | .negation operand => operand.Obeys rules place
  | .conditional test whenTrue whenFalse _ =>
      test.Obeys rules place ∧ whenTrue.Obeys rules place ∧ whenFalse.Obeys rules place
  | .convert operand _ => operand.Obeys rules place
  | .function _ arguments => AllObey rules place arguments

def AllObey (rules : PlaceRules Place) (place : Place) : List Expr → Prop
  | [] => True
  | expr :: rest => expr.Obeys rules place ∧ AllObey rules place rest

def BindingsObey (rules : PlaceRules Place) (place : Place) : List (String × Expr) → Prop
  | [] => True
  | (_, expr) :: rest => expr.Obeys rules place ∧ BindingsObey rules place rest

end

theorem stable_obeys (rules : PlaceRules Place) (place : Place) :
    StableUnderReading (Obeys rules place) where
  constant _ _ := trivial
  member _ _ _ obeys := obeys
  binary _ _ _ first second := ⟨first, second⟩
  conditional _ _ _ _ first second third := ⟨first, second, third⟩

theorem coercedTo_obeys {rules : PlaceRules Place} {place : Place} {sequence : Expr}
    (obeys : sequence.Obeys rules place) (kind : Option CollectionKind) :
    (sequence.coercedTo kind).Obeys rules place := by
  unfold coercedTo
  split
  · exact ⟨obeys, trivial⟩
  · exact ⟨obeys, trivial⟩
  · exact ⟨obeys, trivial⟩
  · exact obeys
  · exact obeys

theorem bindingsObey_of_forall {rules : PlaceRules Place} {place : Place}
    (bindings : List (String × Expr)) (all : ∀ binding ∈ bindings, binding.2.Obeys rules place) :
    BindingsObey rules place bindings := by
  induction bindings with
  | nil => trivial
  | cons binding rest ih =>
    obtain ⟨first, others⟩ := List.forall_mem_cons.1 all
    exact ⟨first, ih others⟩

end Expr

/-- What obeys the first rules obeys the second ones once its parameters are renamed. Only the lambdas
of these parameters are met. -/
structure PlaceRules.Carries {Place Place' : Type} (rules : PlaceRules Place)
    (rules' : PlaceRules Place') (names : Renaming) (params : List Parameter)
    (related : Place → Place' → Prop) : Prop where
  reads : ∀ {place place' param}, related place place' → rules.reads place param →
    rules'.reads place' (renamed names param)
  constructs : ∀ {place place'}, related place place' → rules.constructs place →
    rules'.constructs place'
  opens : ∀ {place place' param inside}, related place place' → param ∈ params →
    rules.opens place param inside →
      ∃ inside', rules'.opens place' (renamed names param) inside' ∧ related inside inside'

namespace Expr

variable {Place Place' : Type} {rules : PlaceRules Place} {rules' : PlaceRules Place'}
  {names : Renaming} {params : List Parameter} {related : Place → Place' → Prop}

mutual

theorem Obeys.rename (carries : rules.Carries rules' names params related) (expr : Expr)
    {place : Place} {place' : Place'} (same : related place place')
    (declares : expr.lambdaParameters ⊆ params) (obeys : expr.Obeys rules place) :
    (expr.rename names).Obeys rules' place' := by
  match expr with
  | .source _ | .constant _ _ => trivial
  | .parameter _ => exact carries.reads same obeys
  | .member target _ _ => exact Obeys.rename carries target same declares obeys
  | .construct _ bindings =>
    exact ⟨carries.constructs same obeys.1,
      BindingsObey.rename carries bindings same declares obeys.2⟩
  | .lambda param body =>
    rw [lambdaParameters_lambda, List.cons_subset] at declares
    obtain ⟨inside, opens, inBody⟩ := obeys
    obtain ⟨inside', opens', sameInside⟩ := carries.opens same declares.1 opens
    exact ⟨inside', opens', Obeys.rename carries body sameInside declares.2 inBody⟩
  | .call _ arguments _ => exact AllObey.rename carries arguments same declares obeys
  | .binary _ left right =>
    rw [lambdaParameters_binary, List.append_subset] at declares
    exact ⟨Obeys.rename carries left same declares.1 obeys.1,
      Obeys.rename carries right same declares.2 obeys.2⟩
  | .negation operand => exact Obeys.rename carries operand same declares obeys
  | .conditional test whenTrue whenFalse _ =>
    rw [lambdaParameters_conditional, List.append_subset, List.append_subset] at declares
    exact ⟨Obeys.rename carries test same declares.1.1 obeys.1,
      Obeys.rename carries whenTrue same declares.1.2 obeys.2.1,
      Obeys.rename carries whenFalse same declares.2 obeys.2.2⟩
  | .convert operand _ => exact Obeys.rename carries operand same declares obeys
  | .function _ arguments => exact AllObey.rename carries arguments same declares obeys

theorem AllObey.rename (carries : rules.Carries rules' names params related) (exprs : List Expr)
    {place : Place} {place' : Place'} (same : related place place')
    (declares : allLambdaParameters exprs ⊆ params) (obey : AllObey rules place exprs) :
    AllObey rules' place' (renameAll names exprs) := by
  match exprs with
  | [] => trivial
  | expr :: rest =>
    rw [allLambdaParameters_cons, List.append_subset] at declares
    exact ⟨Obeys.rename carries expr same declares.1 obey.1,
      AllObey.rename carries rest same declares.2 obey.2⟩

theorem BindingsObey.rename (carries : rules.Carries rules' names params related)
    (bindings : List (String × Expr)) {place : Place} {place' : Place'} (same : related place place')
    (declares : bindingLambdaParameters bindings ⊆ params)
    (obey : BindingsObey rules place bindings) :
    BindingsObey rules' place' (renameBindings names bindings) := by
  match bindings with
  | [] => trivial
  | (_, expr) :: rest =>
    rw [bindingLambdaParameters_cons, List.append_subset] at declares
    exact ⟨Obeys.rename carries expr same declares.1 obey.1,
      BindingsObey.rename carries rest same declares.2 obey.2⟩

end

def scopeRules : PlaceRules Declared where
  reads declared param := param.VisibleIn declared
  constructs _ := True
  opens declared param inside := inside = param :: declared

mutual

theorem obeys_scopeRules (expr : Expr) {declared : Declared} :
    expr.Obeys scopeRules declared ↔ expr.ScopedIn declared := by
  match expr with
  | .source _ | .parameter _ | .constant _ _ => exact Iff.rfl
  | .member target _ _ => exact obeys_scopeRules target
  | .construct _ bindings =>
    exact (iff_of_eq (true_and _)).trans (bindingsObey_scopeRules bindings)
  | .lambda param body =>
    simp only [Obeys, ScopedIn, scopeRules, exists_eq_left]
    exact obeys_scopeRules body
  | .call _ arguments _ => exact allObey_scopeRules arguments
  | .binary _ left right => exact and_congr (obeys_scopeRules left) (obeys_scopeRules right)
  | .negation operand => exact obeys_scopeRules operand
  | .conditional test whenTrue whenFalse _ =>
    exact and_congr (obeys_scopeRules test)
      (and_congr (obeys_scopeRules whenTrue) (obeys_scopeRules whenFalse))
  | .convert operand _ => exact obeys_scopeRules operand
  | .function _ arguments => exact allObey_scopeRules arguments

theorem allObey_scopeRules (exprs : List Expr) {declared : Declared} :
    AllObey scopeRules declared exprs ↔ AllScopedIn declared exprs := by
  match exprs with
  | [] => exact Iff.rfl
  | expr :: rest => exact and_congr (obeys_scopeRules expr) (allObey_scopeRules rest)

theorem bindingsObey_scopeRules (bindings : List (String × Expr)) {declared : Declared} :
    BindingsObey scopeRules declared bindings ↔ BindingsScopedIn declared bindings := by
  match bindings with
  | [] => exact Iff.rfl
  | (_, expr) :: rest => exact and_congr (obeys_scopeRules expr) (bindingsObey_scopeRules rest)

end

def freeRules : PlaceRules Unit where
  reads _ _ := True
  constructs _ := False
  opens _ _ _ := True

mutual

theorem obeys_freeRules (expr : Expr) : expr.Obeys freeRules () ↔ expr.ConstructFree := by
  match expr with
  | .source _ | .parameter _ | .constant _ _ => exact Iff.rfl
  | .member target _ _ => exact obeys_freeRules target
  | .construct _ _ => exact iff_of_false And.left id
  | .lambda _ body =>
    exact ⟨fun ⟨_, _, free⟩ => (obeys_freeRules body).1 free,
      fun free => ⟨(), trivial, (obeys_freeRules body).2 free⟩⟩
  | .call _ arguments _ => exact allObey_freeRules arguments
  | .binary _ left right => exact and_congr (obeys_freeRules left) (obeys_freeRules right)
  | .negation operand => exact obeys_freeRules operand
  | .conditional test whenTrue whenFalse _ =>
    exact and_congr (obeys_freeRules test)
      (and_congr (obeys_freeRules whenTrue) (obeys_freeRules whenFalse))
  | .convert operand _ => exact obeys_freeRules operand
  | .function _ arguments => exact allObey_freeRules arguments

theorem allObey_freeRules (exprs : List Expr) :
    AllObey freeRules () exprs ↔ AllConstructFree exprs := by
  match exprs with
  | [] => exact Iff.rfl
  | expr :: rest => exact and_congr (obeys_freeRules expr) (allObey_freeRules rest)

end

end Expr

end QueryProjection
