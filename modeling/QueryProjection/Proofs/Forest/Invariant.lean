import QueryProjection.Proofs.Forest.DefaultSteps
import QueryProjection.Proofs.Forest.Levels

set_option autoImplicit false

namespace QueryProjection

open Outcome

namespace Resolver

structure Keeps (resolver : Resolver) (place : String → MemberPath → Prop) (holds : Forest → Prop) :
    Prop extends KeepsDefaults resolver place holds where
  expands : ∀ {typeName path segments filter arrangement target element}, place typeName path →
    resolver.expandTarget path typeName segments filter arrangement = .ok (target, element) →
      place element target ∧ ∀ forest, holds forest → holds (forest.addExpansion target)
  selects : ∀ {typeName path segments target}, place typeName path →
    resolver.selectTarget path typeName segments = .ok (target, none) →
      ∀ forest, holds forest → holds (forest.addSelect target)
  opens : ∀ {typeName path segments target element}, place typeName path →
    resolver.selectTarget path typeName segments = .ok (target, some element) → place element target

section

variable {resolver : Resolver} {place : String → MemberPath → Prop} {holds : Forest → Prop}
  {typeName : String} {path : MemberPath} {forest forest' : Forest}

theorem Keeps.level (keeps : resolver.Keeps place holds) {allSelected : Bool} {items : List ClauseItem}
    {addExpands addSelects : Forest → Outcome Forest} (here : place typeName path)
    (start : holds forest)
    (expands : ∀ before after, holds before → addExpands before = .ok after → holds after)
    (selects : ∀ before after, holds before → addSelects before = .ok after → holds after)
    (added : resolver.level typeName path allSelected items addExpands addSelects forest =
      .ok forest') : holds forest' := by
  simp only [Resolver.level, bind_eq_ok] at added
  obtain ⟨-, -, expanded, isExpanded, added⟩ := added
  have held := expands forest expanded start isExpanded
  split at added
  next =>
    obtain ⟨defaulted, defaults, isSelected⟩ := bind_eq_ok.1 added
    exact selects defaulted forest' (keeps.addDefaults here held defaults) isSelected
  next => exact selects expanded forest' held added

end

mutual

theorem Keeps.addExpands {resolver : Resolver} {place : String → MemberPath → Prop}
    {holds : Forest → Prop} (keeps : resolver.Keeps place holds) (items : List ClauseItem)
    {typeName : String} {path : MemberPath} {forest forest' : Forest} (here : place typeName path)
    (start : holds forest)
    (added : resolver.addExpands typeName path items forest = .ok forest') : holds forest' := by
  match items with
  | [] =>
    simp only [Resolver.addExpands, Except.ok.injEq] at added
    exact added ▸ start
  | .expand segments none filter arrangement :: rest =>
    simp only [Resolver.addExpands, bind_eq_ok] at added
    obtain ⟨⟨target, element⟩, leads, defaulted, defaults, added⟩ := added
    obtain ⟨there, adds⟩ := keeps.expands here leads
    exact keeps.addExpands rest here (adds _ (keeps.addDefaults there start defaults)) added
  | .expand segments (some ⟨allSelected, inner⟩) filter arrangement :: rest =>
    simp only [Resolver.addExpands, bind_eq_ok] at added
    obtain ⟨⟨target, element⟩, leads, levelled, isLevel, added⟩ := added
    obtain ⟨there, adds⟩ := keeps.expands here leads
    have held := keeps.level there start
      (fun _ _ held added => keeps.addExpands inner there held added)
      (fun _ _ held added => keeps.addSelects inner there held added) isLevel
    refine keeps.addExpands rest here ?_ added
    split
    next => exact held
    next => exact adds _ held
  | .path _ _ :: rest | .reference _ :: rest | .count _ :: rest =>
    exact keeps.addExpands rest here start (by simpa only [Resolver.addExpands] using added)
termination_by items

theorem Keeps.addSelects {resolver : Resolver} {place : String → MemberPath → Prop}
    {holds : Forest → Prop} (keeps : resolver.Keeps place holds) (items : List ClauseItem)
    {typeName : String} {path : MemberPath} {forest forest' : Forest} (here : place typeName path)
    (start : holds forest)
    (added : resolver.addSelects typeName path items forest = .ok forest') : holds forest' := by
  match items with
  | [] =>
    simp only [Resolver.addSelects, Except.ok.injEq] at added
    exact added ▸ start
  | .path segments none :: rest =>
    simp only [Resolver.addSelects, bind_eq_ok] at added
    obtain ⟨⟨target, element⟩, leads, added⟩ := added
    match element with
    | none => exact keeps.addSelects rest here (keeps.selects here leads _ start) added
    | some element =>
      obtain ⟨selected, defaults, added⟩ := bind_eq_ok.1 added
      have held := keeps.addDefaults (keeps.opens here leads) start defaults
      exact keeps.addSelects rest here held added
  | .path segments (some ⟨allSelected, inner⟩) :: rest =>
    simp only [Resolver.addSelects, bind_eq_ok] at added
    obtain ⟨⟨target, element⟩, leads, added⟩ := added
    match element with
    | none => exact keeps.addSelects rest here (keeps.selects here leads _ start) added
    | some element =>
      obtain ⟨levelled, isLevel, added⟩ := bind_eq_ok.1 added
      have there := keeps.opens here leads
      have held := keeps.level there start
        (fun _ _ held added => keeps.addExpands inner there held added)
        (fun _ _ held added => keeps.addSelects inner there held added) isLevel
      exact keeps.addSelects rest here held added
  | .expand _ _ _ _ :: rest | .reference _ :: rest | .count _ :: rest =>
    exact keeps.addSelects rest here start (by simpa only [Resolver.addSelects] using added)
termination_by items

end

theorem Keeps.build {schema : Schema} {rootType : String} {clause : Option Clause}
    {context : BindingContext} {maxExpandDepth : Nat} {forest : Forest}
    {place : String → MemberPath → Prop} {holds : Forest → Prop}
    (keeps : Keeps ⟨schema, context, maxExpandDepth⟩ place holds) (root : place rootType [])
    (start : holds .empty)
    (built : Forest.build schema rootType clause context maxExpandDepth = .ok forest) :
    holds forest := by
  rw [build_eq_addClause] at built
  obtain ⟨-, -, built⟩ := bind_eq_ok.1 built
  exact keeps.level root start (fun _ _ held added => keeps.addExpands _ root held added)
    (fun _ _ held added => keeps.addSelects _ root held added) built

end Resolver

end QueryProjection
