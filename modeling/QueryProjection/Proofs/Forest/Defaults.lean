import QueryProjection.Proofs.Forest.Building
import QueryProjection.Proofs.Forest.Includes

set_option autoImplicit false

namespace QueryProjection

open Outcome

inductive DefaultPath (schema : Schema) : String → MemberPath → Prop where
  | last {typeName : String} {step : PathStep} (listed : step.ListedOn schema typeName)
      (primitive : schema.targetKind step.memberType = .ok .primitive) :
      DefaultPath schema typeName [step]
  | cons {typeName element : String} {step : PathStep} {rest : MemberPath}
      (listed : step.ListedOn schema typeName)
      (complex : schema.targetKind step.memberType = .ok .complex)
      (leads : step.element? = some element) (later : DefaultPath schema element rest) :
      DefaultPath schema typeName (step :: rest)

namespace DefaultPath

variable {schema : Schema} {typeName : String} {path : MemberPath}

theorem ne_nil (isDefault : DefaultPath schema typeName path) : path ≠ [] := by
  cases isDefault <;> simp

theorem leads (isDefault : DefaultPath schema typeName path) : path.Leads schema typeName := by
  induction isDefault with
  | @last typeName step listed primitive =>
    refine ⟨.inr listed, ?_⟩
    cases step.element? with
    | none => rfl
    | some element => trivial
  | cons listed complex leads later ih =>
    refine ⟨.inr listed, ?_⟩
    rw [leads]
    exact ih

theorem listed (isDefault : DefaultPath schema typeName path) :
    ∀ step ∈ path, step.ListedOn schema step.declaringType := by
  induction isDefault with
  | last listed primitive => simpa [listed.1] using listed
  | cons listed complex leads later ih =>
    refine List.forall_mem_cons.2 ⟨?_, ih⟩
    rw [listed.1]
    exact listed

theorem liesOnExpansions (isDefault : DefaultPath schema typeName path)
    (expansions : List MemberPath) (before : MemberPath) :
    Include.liesOnExpansions schema expansions before path = .ok true := by
  induction isDefault generalizing before with
  | last listed primitive => simp [Include.liesOnExpansions, primitive]
  | cons listed complex leads later ih => simp [Include.liesOnExpansions, complex, ih]

end DefaultPath

namespace Resolver

variable {resolver : Resolver} {typeName : String} {path target : MemberPath}
  {forest forest' : Forest}

theorem stepOf_listedOn {member : MemberDecl} {step : PathStep}
    (listed : resolver.schema.Lists typeName member)
    (made : resolver.stepOf typeName member = .ok step) : step.ListedOn resolver.schema typeName := by
  obtain ⟨named, declared, typed, -⟩ := stepOf_eq_ok made
  refine ⟨declared, ?_⟩
  rw [PathStep.member, named, typed]
  exact listed

theorem Descends.defaultPath {element : String} {more later : MemberPath}
    (descends : resolver.Descends typeName path more element)
    (onwards : DefaultPath resolver.schema element later) :
    DefaultPath resolver.schema typeName (more ++ later) := by
  induction descends generalizing later with
  | here => exact onwards
  | deeper earlier listed complex leads new made ih =>
    rw [List.append_assoc]
    have typed := (stepOf_eq_ok made).2.2.1
    refine ih (.cons (stepOf_listedOn listed made) (by rwa [typed]) ?_ onwards)
    rwa [PathStep.element?, typed]

theorem addDefaults_descends (added : resolver.addDefaults typeName path forest = .ok forest')
    (selected : target ∈ forest'.selects) :
    target ∈ forest.selects ∨
      ∃ more step element, target = path ++ (more ++ [step]) ∧
        resolver.Descends typeName path more element ∧ step.ListedOn resolver.schema element ∧
          resolver.schema.targetKind step.memberType = .ok .primitive := by
  have keeps : resolver.KeepsDefaults
      (fun element below => ∃ more, below = path ++ more ∧
        resolver.Descends typeName path more element)
      (fun later => ∀ target ∈ later.selects, target ∈ forest.selects ∨
        ∃ more step element, target = path ++ (more ++ [step]) ∧
          resolver.Descends typeName path more element ∧ step.ListedOn resolver.schema element ∧
            resolver.schema.targetKind step.memberType = .ok .primitive) := by
    -- Members are added at the end of a way down, and a complex one leads the way on.
    constructor
    · rintro element _ members member step ⟨more, rfl, descends⟩ listed isMember primitive made
        later held target isTarget
      rcases Forest.mem_of_mem_addPath isTarget with earlier | rfl
      · exact held target earlier
      · refine .inr ⟨more, step, element, List.append_assoc _ _ _, descends,
          stepOf_listedOn ⟨members, listed, isMember⟩ made, ?_⟩
        rwa [(stepOf_eq_ok made).2.2.1]
    · rintro element _ members member step next ⟨more, rfl, descends⟩ listed isMember complex leads
        new made
      exact ⟨_, List.append_assoc _ _ _,
        descends.deeper ⟨members, listed, isMember⟩ complex leads new made⟩
  exact keeps.addDefaults ⟨[], (List.append_nil _).symm, .here⟩ (fun _ earlier => .inl earlier) added
    target selected

theorem addDefaults_selects (added : resolver.addDefaults typeName path forest = .ok forest')
    (selected : target ∈ forest'.selects) :
    target ∈ forest.selects ∨
      ∃ more, target = path ++ more ∧ DefaultPath resolver.schema typeName more :=
  (addDefaults_descends added selected).imp_right fun ⟨more, step, _, same, descends, listed, primitive⟩ =>
    ⟨more ++ [step], same, descends.defaultPath (.last listed primitive)⟩

end Resolver

theorem Forest.build_none {schema : Schema} {rootType : String} {context : BindingContext}
    {maxExpandDepth : Nat} {forest : Forest}
    (built : Forest.build schema rootType none context maxExpandDepth = .ok forest) :
    forest.expansions = [] ∧ ∀ path ∈ forest.selects, DefaultPath schema rootType path := by
  unfold Forest.build at built
  obtain ⟨-, -, built⟩ := bind_eq_ok.1 built
  refine ⟨Resolver.addDefaults_expansions built, fun path selected => ?_⟩
  rcases Resolver.addDefaults_selects built selected with before | ⟨more, same, isDefault⟩
  · simp [Forest.empty] at before
  · rw [same]
    exact isDefault

theorem Forest.covers_default {schema : Schema} {rootType : String} {context : BindingContext}
    {maxExpandDepth : Nat} {forest : Forest} {includes : List Lambda} {tree : IncludeTree}
    {path : MemberPath}
    (built : Forest.build schema rootType none context maxExpandDepth = .ok forest)
    (included : Include.ofForest schema rootType forest = .ok includes)
    (made : Mapping.includeTree includes = .ok tree) (selected : path ∈ forest.selects)
    (walk : Walk schema rootType path) : tree.Covers path.names := by
  obtain ⟨none_, defaults⟩ := Forest.build_none built
  have leads : ∀ other ∈ forest.expansions ++ forest.selects, other.Leads schema rootType := by
    rw [none_]
    exact fun other member => (defaults other member).leads
  have isIncluded : forest.Includes schema path :=
    .inr ⟨selected, (defaults path selected).liesOnExpansions _ _⟩
  rw [← List.append_nil path] at isIncluded walk
  exact Forest.covers_of_includes included made leads isIncluded walk (defaults path selected).listed

end QueryProjection
