import QueryProjection.Mapping.Projection
import QueryProjection.Proofs.Expr.Places
import QueryProjection.Proofs.Mapping.Arrangement

set_option autoImplicit false

namespace QueryProjection

open Outcome

inductive Layer where
  | element
  | items (depth : Nat)

inductive Layer.Opens : Layer → String → Layer → Prop where
  | element (depth : Nat) : Opens (.items depth) elementName .element
  | items (depth : Nat) : Opens (.items depth) (Mapping.itemNameAtDepth depth) (.items (depth + 1))

def layerRules : PlaceRules Layer where
  reads _ _ := True
  constructs layer := layer ≠ .element
  opens layer param inside := layer.Opens param.name inside

structure Lambda.OnElement (lambda : Lambda) : Prop where
  named : lambda.parameter.name = elementName
  closed : lambda.body.ScopedIn [lambda.parameter]
  flat : lambda.body.Obeys layerRules .element

def PlaceRules.AdmitsElements {Place : Type} (rules : PlaceRules Place) : Prop :=
  ∀ lambda : Lambda, lambda.OnElement → ∀ place, rules.constructs place →
    (Expr.ofLambda lambda).Obeys rules place

theorem Expr.Arranges.obeys {Place : Type} {rules : PlaceRules Place} {place : Place}
    {levels : List OrderLevel} {skip top : Option Nat} {inner outer : Expr}
    (arranges : Arranges levels skip top inner outer)
    (keys : ∀ level ∈ levels, (Expr.ofLambda level.key).Obeys rules place)
    (obeys : inner.Obeys rules place) : outer.Obeys rules place :=
  arranges.preserves (Obeys rules place) (fun _ _ _ _ _ first second => ⟨first, second, trivial⟩)
    (fun _ => trivial) keys obeys

theorem scopeRules_admitsElements : Expr.scopeRules.AdmitsElements := by
  intro lambda onElement declared _
  exact (Expr.obeys_scopeRules _).2 (Expr.scopedIn_of_closed_lambda onElement.closed declared)

theorem layerRules_admitsElements : layerRules.AdmitsElements := by
  intro lambda onElement layer constructs
  cases layer with
  | element => exact absurd rfl constructs
  | items depth =>
    have opens : Layer.Opens (.items depth) lambda.parameter.name .element := by
      rw [onElement.named]
      exact .element depth
    exact ⟨.element, opens, onElement.flat⟩

theorem Filter.bind_onElement {schema : Schema} {elementType : String} {filter : Filter}
    {context : BindingContext} {predicate : Lambda}
    (bound : filter.bind schema elementType context = .ok predicate) : predicate.OnElement := by
  obtain ⟨same, built⟩ := Filter.bind_eq_ok bound
  exact ⟨same ▸ rfl, same ▸ built.scopedIn, built.obeys trivial⟩

theorem Binder.levels_onElement {binder : Binder} {order : List OrderKey} {levels : List OrderLevel}
    (bound : binder.levels order = .ok levels) : ∀ level ∈ levels, level.key.OnElement := by
  intro level isLevel
  obtain ⟨key, -, path, reads, rfl⟩ := exists_of_forall₂ (levels_eq_ok.1 bound).flip isLevel
  exact ⟨rfl, memberPath_scopedIn reads, memberPath_obeys trivial reads⟩

namespace Mapping

variable {mapping : Mapping}

theorem carries_layerRules : mapping.CarriesRules layerRules layerRules
    fun layer layer' => layer = .element ∧ layer' = .element where
  reads _ _ := trivial
  opens := by
    rintro _ _ param inside ⟨rfl, rfl⟩ opens
    -- No lambda opens inside of an element.
    cases opens

theorem lambdaToSource_onElement {lambda mapped : Lambda} (onElement : lambda.OnElement)
    (translated : mapping.lambdaToSource lambda = .ok mapped) : mapped.OnElement := by
  obtain ⟨same, closed, -⟩ := lambdaToSource_spec onElement.closed translated
  simp only [lambdaToSource, bind_eq_ok, pure_eq_ok] at translated
  obtain ⟨body, isBody, rfl⟩ := translated
  exact ⟨onElement.named, closed,
    toSource_obeys carries_layerRules lambda.body ⟨rfl, rfl⟩ onElement.flat isBody⟩

theorem levelsToSource_onElement {levels mapped : List OrderLevel}
    (onElement : ∀ level ∈ levels, level.key.OnElement)
    (translated : mapping.levelsToSource levels = .ok mapped) :
    ∀ level ∈ mapped, level.key.OnElement := by
  intro level' isLevel'
  obtain ⟨level, isLevel, key, isKey, rfl⟩ :=
    exists_of_forall₂ (levelsToSource_eq_ok.1 translated).flip isLevel'
  exact lambdaToSource_onElement (onElement level isLevel) isKey

end Mapping

end QueryProjection
