import QueryProjection.Proofs.Forest.Defaults

set_option autoImplicit false

namespace QueryProjection

open Outcome

def MemberPath.elements (path : MemberPath) : List String :=
  path.filterMap PathStep.element?

namespace Resolver

variable {resolver : Resolver} {typeName element : String} {path more target : MemberPath}
  {forest forest' : Forest}

theorem Descends.elements_nodup (descends : resolver.Descends typeName path more element) :
    more.elements.Nodup := by
  obtain ⟨entered, elements, apart, -⟩ := descends.entered
  have same : more.elements = entered := by
    have mapped := congrArg (List.filterMap id) elements
    simpa [MemberPath.elements, List.filterMap_map] using mapped
  exact same ▸ apart

/-- Default members end on every schema, also one whose complex types hold themselves and whose
bases lead nowhere. No more fuel is needed for a chain of bases than there are types, and what the
recursion would do below as many levels as there are complex types makes no difference: the way down
enters another complex type at each step, and so does every path that is selected. -/
theorem defaults_end (resolver : Resolver) (typeName : String) (path : MemberPath) :
    (∀ name fuel, resolver.schema.types.length < fuel →
      resolver.schema.baseChain fuel [] name = resolver.schema.chainOf name) ∧
    (∀ fuel below, resolver.schema.complexNames.length < fuel →
      resolver.defaultsStep^[fuel] below typeName path = resolver.addDefaults typeName path) ∧
    resolver.addDefaults typeName path = resolver.defaultsStep resolver.addDefaults typeName path ∧
    (∀ more element, resolver.Descends typeName path more element →
      more.length ≤ resolver.schema.complexNames.length ∧
      ∃ entered : List String, more.map PathStep.element? = entered.map some ∧ entered.Nodup ∧
        ∀ name ∈ entered, name ∈ resolver.schema.complexNames ∧ passes path name = false) ∧
    (∀ forest forest', resolver.addDefaults typeName path forest = .ok forest' →
      ∀ target ∈ forest'.selects, target ∈ forest.selects ∨
        ∃ more, target = path ++ more ∧ more.elements.Nodup ∧
          more.length ≤ resolver.schema.complexNames.length + 1) := by
  refine ⟨fun name fuel => Schema.baseChain_eq_chainOf,
    fun fuel below enough => iterate_defaultsStep enough below, funext addDefaults_eq,
    fun more element descends => ⟨descends.length_le, descends.entered⟩,
    fun forest forest' added target selected => ?_⟩
  rcases addDefaults_descends added selected with
    earlier | ⟨more, step, element, rfl, descends, -, primitive⟩
  · exact .inl earlier
  · have ends : step.element? = none :=
      Option.eq_none_iff_forall_ne_some.2 fun _ leads =>
        Schema.targetKind_ne_primitive leads primitive
    refine .inr ⟨more ++ [step], rfl, ?_, ?_⟩
    · simpa [MemberPath.elements, ends] using descends.elements_nodup
    · rw [List.length_append, List.length_singleton]
      exact Nat.succ_le_succ descends.length_le

def firmSchema : Schema :=
  ⟨[⟨"Address", .complex, none,
      [⟨"City", .scalar .string⟩, ⟨"Former", .collection .list (.named "Address")⟩,
        ⟨"Tenant", .named "Firm"⟩]⟩,
    ⟨"Firm", .complex, some "Owned",
      [⟨"Name", .scalar .string⟩, ⟨"Seat", .nullable (.named "Address")⟩]⟩,
    ⟨"Owned", .complex, none, [⟨"Owner", .nullable (.named "Firm")⟩]⟩]⟩

theorem defaults_end_firm :
    ∃ forest, addDefaults ⟨firmSchema, ⟨false, none⟩, 4⟩ "Firm" [] .empty = .ok forest ∧
      forest.selects.map MemberPath.names =
        [["Owner", "Name"], ["Owner", "Seat", "City"], ["Name"], ["Seat", "City"],
          ["Seat", "Tenant", "Name"]] ∧
      ∀ target ∈ forest.selects, target.elements.Nodup ∧ target.length ≤ 4 := by
  obtain ⟨forest, added, names⟩ := exists_of_toOption_any
    (addDefaults ⟨firmSchema, ⟨false, none⟩, 4⟩ "Firm" [] .empty)
    (fun forest => forest.selects.map MemberPath.names ==
      [["Owner", "Name"], ["Owner", "Seat", "City"], ["Name"], ["Seat", "City"],
        ["Seat", "Tenant", "Name"]]) (by rfl)
  refine ⟨forest, added, beq_iff_eq.1 names, fun target selected => ?_⟩
  obtain ⟨-, -, -, -, selects⟩ := defaults_end ⟨firmSchema, ⟨false, none⟩, 4⟩ "Firm" []
  rcases selects .empty forest added target selected with earlier | ⟨more, rfl, apart, most⟩
  · simp [Forest.empty] at earlier
  · exact ⟨apart, most⟩

end Resolver

end QueryProjection
