import QueryProjection.Proofs.Expr.Places
import QueryProjection.Proofs.Mapping.Records
import QueryProjection.Proofs.Mapping.Source

set_option autoImplicit false

namespace QueryProjection.Mapping

open Outcome

structure AdmitsItems {Place : Type} (rules : PlaceRules Place) (placed : Nat → Place → Prop) :
    Prop where
  constructs : ∀ {depth place}, placed depth place → rules.constructs place
  opens : ∀ {depth place}, placed depth place → ∀ ty : DataType, ∃ inside,
    rules.opens place ⟨itemNameAtDepth (depth + 1), ty⟩ inside ∧ placed (depth + 1) inside ∧
      rules.reads inside ⟨itemNameAtDepth (depth + 1), ty⟩

variable {mapping : Mapping} {construct : Construct} {Place : Type} {rules : PlaceRules Place}
  {placed : Nat → Place → Prop}

def ConstructObeys (rules : PlaceRules Place) (placed : Nat → Place → Prop)
    (construct : Construct) : Prop :=
  ∀ modelType source depth expr, construct modelType source depth = .ok expr →
    ∀ place, placed depth place → source.Obeys rules place → expr.Obeys rules place

variable {depth : Nat} {place : Place}

theorem FitsBy.obeys (admits : AdmitsItems rules placed)
    (keeps : ConstructObeys rules placed construct) {memberType : DataType} {read expr : Expr}
    (isPlaced : placed depth place) (obeys : read.Obeys rules place)
    (fits : mapping.FitsBy construct memberType read depth expr) : expr.Obeys rules place := by
  cases fits with
  | same _ _ => exact obeys
  | converted _ _ => exact obeys
  | @items _ body _ _ _ constructed selects =>
    subst selects
    obtain ⟨inside, opens, isInside, reads⟩ := admits.opens isPlaced read.type.elementType
    have inBody := keeps _ _ _ _ constructed inside isInside reads
    have selected : (read.selected
        ⟨⟨itemNameAtDepth (depth + 1), read.type.elementType⟩, body⟩).Obeys rules place :=
      ⟨obeys, ⟨inside, opens, inBody⟩, trivial⟩
    exact ⟨⟨obeys, trivial⟩, trivial, Expr.coercedTo_obeys selected _⟩
  | record _ _ constructed =>
    exact ⟨⟨obeys, trivial⟩, trivial, keeps _ _ _ _ constructed place isPlaced obeys⟩

theorem Binds.obeys (admits : AdmitsItems rules placed) {parameters : ProjectionParameters}
    {fuel : Nat} {tree : IncludeTree} {modelType : String} {member : MemberDecl} {source : Expr}
    {binding : String × Expr}
    (keeps : ∀ tree, ConstructObeys rules placed (mapping.construct parameters fuel tree))
    (isPlaced : placed depth place) (obeys : source.Obeys rules place)
    (binds : mapping.Binds parameters fuel tree modelType source depth member binding) :
    binding.2.Obeys rules place := by
  obtain ⟨-, ⟨-, same⟩ | ⟨child, -, bound⟩⟩ := binds
  · exact same ▸ trivial
  cases path : mapping.mapPath? modelType member.name with
  | none =>
    obtain ⟨-, value, -, same⟩ := bindingValue_of_parameter path bound
    exact same ▸ trivial
  | some names =>
    rw [bindingValue_of_mapPath path] at bound
    obtain ⟨read, reads, fits⟩ := bind_eq_ok.1 bound
    have obeysRead := (Expr.stable_obeys rules place).readMapped obeys reads
    exact (fitsBy_of_fit fits).obeys admits (keeps child) isPlaced obeysRead

theorem construct_obeys (admits : AdmitsItems rules placed) (parameters : ProjectionParameters)
    (fuel : Nat) (tree : IncludeTree) :
    ConstructObeys rules placed (mapping.construct parameters fuel tree) := by
  induction fuel generalizing tree with
  | zero =>
    intro modelType source depth expr constructed
    simp [Mapping.construct] at constructed
  | succ fuel ih =>
    intro modelType source depth expr constructed place isPlaced obeys
    obtain ⟨_, bindings, members, fuels, rfl, -, binds⟩ := construct_eq_ok constructed
    cases fuels
    refine ⟨admits.constructs isPlaced, Expr.bindingsObey_of_forall bindings fun binding isBinding => ?_⟩
    obtain ⟨member, -, bound⟩ := exists_of_forall₂ binds.flip isBinding
    exact Binds.obeys admits ih isPlaced obeys bound

def rootParameter (sourceType : String) : Parameter :=
  ⟨itemNameAtDepth 0, .named sourceType⟩

theorem project_obeys (admits : AdmitsItems rules placed) {sourceType modelType : String}
    {includes : List Lambda} {parameters : ProjectionParameters} {projection : Lambda} {place : Place}
    (isPlaced : placed 0 place) (reads : rules.reads place (rootParameter sourceType))
    (projected : mapping.project sourceType modelType includes parameters = .ok projection) :
    projection.parameter = rootParameter sourceType ∧ projection.body.Obeys rules place := by
  simp only [project, bind_eq_ok, pure_eq_ok] at projected
  obtain ⟨-, -, tree, -, body, constructed, rfl⟩ := projected
  exact ⟨rfl, construct_obeys admits parameters _ tree _ _ _ _ constructed place isPlaced reads⟩

theorem scopeRules_admitsItems : AdmitsItems Expr.scopeRules (fun _ _ => True) where
  constructs _ := trivial
  opens _ _ := ⟨_, rfl, trivial, Parameter.visibleIn_cons.2 (.inl rfl)⟩

theorem project_spec {sourceType modelType : String} {includes : List Lambda}
    {parameters : ProjectionParameters} {projection : Lambda}
    (projected : mapping.project sourceType modelType includes parameters = .ok projection) :
    projection.parameter = rootParameter sourceType ∧
      projection.body.ScopedIn [rootParameter sourceType] := by
  rw [← Expr.obeys_scopeRules]
  exact project_obeys scopeRules_admitsItems trivial (Parameter.visibleIn_cons.2 (.inl rfl)) projected

end QueryProjection.Mapping
