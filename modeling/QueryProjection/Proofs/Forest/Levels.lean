import QueryProjection.Forest.Resolution
import QueryProjection.Proofs.Outcome

set_option autoImplicit false

namespace QueryProjection

open Outcome

namespace ClauseItem

@[simp] theorem isPath_path (segments : List String) (nested : Option Clause) :
    (path segments nested).isPath = true := rfl

@[simp] theorem isPath_expand (segments : List String) (nested : Option Clause)
    (filter : Option Filter) (arrangement : Arrangement) :
    (expand segments nested filter arrangement).isPath = false := rfl

@[simp] theorem isPath_reference (segments : List String) : (reference segments).isPath = false := rfl

@[simp] theorem isPath_count (segments : List String) : (count segments).isPath = false := rfl

end ClauseItem

/-- A clause that names no member and expands no navigation. -/
def Clause.unspecified : Clause := ⟨false, []⟩

namespace Resolver

variable {resolver : Resolver} {typeName : String} {path : MemberPath}
  {items items' : List ClauseItem} {forest forest' : Forest}

def addClause (resolver : Resolver) (typeName : String) (path : MemberPath) (clause : Clause) :
    Forest → Outcome Forest :=
  resolver.level typeName path clause.allSelected clause.items
    (resolver.addExpands typeName path clause.items)
    (resolver.addSelects typeName path clause.items)

theorem addClause_unspecified (forest : Forest) :
    resolver.addClause typeName path .unspecified forest =
      resolver.addDefaults typeName path forest := by
  simp only [addClause, level, Clause.unspecified, checkItems, addExpands, addSelects,
    Clause.takesDefaults, ok_bind]
  exact bind_ok _

theorem build_eq_addClause (schema : Schema) (rootType : String) (clause : Option Clause)
    (context : BindingContext) (maxExpandDepth : Nat) :
    Forest.build schema rootType clause context maxExpandDepth = (do
      let _ ← schema.get rootType
      addClause ⟨schema, context, maxExpandDepth⟩ rootType [] (clause.getD .unspecified) .empty) := by
  unfold Forest.build
  cases clause with
  | none => simp only [Option.getD_none, addClause_unspecified]
  | some clause => rfl

theorem addExpands_expand (segments : List String) (nested : Option Clause)
    (filter : Option Filter) (arrangement : Arrangement) (rest : List ClauseItem)
    (forest : Forest) :
    resolver.addExpands typeName path (.expand segments nested filter arrangement :: rest) forest =
      (do
        let target ← resolver.expandTarget path typeName segments filter arrangement
        let added ← resolver.addClause target.2 target.1 (nested.getD .unspecified) forest
        resolver.addExpands typeName path rest
          (if (nested.getD .unspecified).items.any ClauseItem.isExpand then added
            else added.addExpansion target.1)) := by
  cases nested with
  | none => simp only [addExpands, Option.getD_none, addClause_unspecified]; rfl
  | some clause => simp only [addExpands]; rfl

def addSelected (resolver : Resolver) (nested : Option Clause) (forest : Forest) :
    MemberPath × Option String → Outcome Forest
  | (target, none) => .ok (forest.addSelect target)
  | (target, some element) =>
      resolver.addClause element target (nested.getD .unspecified) forest

theorem addSelects_path (segments : List String) (nested : Option Clause)
    (rest : List ClauseItem) (forest : Forest) :
    resolver.addSelects typeName path (.path segments nested :: rest) forest = (do
      let target ← resolver.selectTarget path typeName segments
      let added ← resolver.addSelected nested forest target
      resolver.addSelects typeName path rest added) := by
  simp only [addSelects]
  cases resolver.selectTarget path typeName segments with
  | error cause => rfl
  | ok target =>
    obtain ⟨target, element⟩ := target
    cases element with
    | none => rfl
    | some element =>
      cases nested with
      | none =>
        simp only [ok_bind, addSelected, Option.getD_none, addClause_unspecified]
      | some clause => rfl

theorem addExpands_append (before after : List ClauseItem) (forest : Forest) :
    resolver.addExpands typeName path (before ++ after) forest =
      (resolver.addExpands typeName path before forest >>=
        resolver.addExpands typeName path after) := by
  induction before generalizing forest with
  | nil => simp [addExpands]
  | cons item rest ih =>
    cases item with
    | expand segments nested filter arrangement =>
      simp only [List.cons_append, addExpands_expand, ih, bind_assoc]
    | path _ _ | reference _ | count _ => simpa only [List.cons_append, addExpands] using ih forest

theorem addSelects_append (before after : List ClauseItem) (forest : Forest) :
    resolver.addSelects typeName path (before ++ after) forest =
      (resolver.addSelects typeName path before forest >>=
        resolver.addSelects typeName path after) := by
  induction before generalizing forest with
  | nil => simp [addSelects]
  | cons item rest ih =>
    cases item with
    | path segments nested => simp only [List.cons_append, addSelects_path, ih, bind_assoc]
    | expand _ _ _ _ | reference _ | count _ =>
      simpa only [List.cons_append, addSelects] using ih forest

theorem addExpands_filter (items : List ClauseItem) (forest : Forest) :
    resolver.addExpands typeName path (items.filter fun item => !item.isPath) forest =
      resolver.addExpands typeName path items forest := by
  induction items generalizing forest with
  | nil => rfl
  | cons item rest ih =>
    cases item with
    | expand segments nested filter arrangement =>
      simp only [List.filter_cons, ClauseItem.isPath_expand, Bool.not_false, if_true,
        addExpands_expand, ih]
    | path _ _ | reference _ | count _ => simpa [List.filter_cons, addExpands] using ih forest

theorem addSelects_filter (items : List ClauseItem) (forest : Forest) :
    resolver.addSelects typeName path (items.filter ClauseItem.isPath) forest =
      resolver.addSelects typeName path items forest := by
  induction items generalizing forest with
  | nil => rfl
  | cons item rest ih =>
    cases item with
    | path segments nested =>
      simp only [List.filter_cons, ClauseItem.isPath_path, if_true, addSelects_path, ih]
    | expand _ _ _ _ | reference _ | count _ =>
      simpa [List.filter_cons, addSelects] using ih forest

theorem checkItems_filter (items : List ClauseItem) :
    checkItems (items.filter fun item => !item.isPath) = checkItems items := by
  induction items with
  | nil => rfl
  | cons item rest ih => cases item <;> simp [checkItems, ih]

theorem checkItems_append (before after : List ClauseItem) :
    checkItems (before ++ after) = (checkItems before >>= fun _ => checkItems after) := by
  induction before with
  | nil => rfl
  | cons item rest ih => cases item <;> simp [checkItems, ih]

theorem level_mono {allSelected : Bool}
    {addExpands addExpands' addSelects addSelects' : Forest → Outcome Forest}
    (checks : checkItems items' = checkItems items)
    (takes : items'.any ClauseItem.isPath = items.any ClauseItem.isPath)
    (expands : ∀ before after, addExpands before = .ok after → addExpands' before = .ok after)
    (selects : ∀ before after, addSelects before = .ok after → addSelects' before = .ok after)
    (added : resolver.level typeName path allSelected items addExpands addSelects forest =
      .ok forest') :
    resolver.level typeName path allSelected items' addExpands' addSelects' forest =
      .ok forest' := by
  have sameDefaults : Clause.takesDefaults ⟨allSelected, items'⟩ =
      Clause.takesDefaults ⟨allSelected, items⟩ := by
    simp only [Clause.takesDefaults, takes]
  simp only [level, bind_eq_ok] at added ⊢
  obtain ⟨⟨⟩, checked, expanded, isExpanded, added⟩ := added
  refine ⟨(), checks.trans checked, expanded, expands _ _ isExpanded, ?_⟩
  rw [sameDefaults]
  split at added
  next takes =>
    obtain ⟨defaulted, defaults, selected⟩ := bind_eq_ok.1 added
    rw [if_pos takes]
    exact bind_eq_ok.2 ⟨defaulted, defaults, selects _ _ selected⟩
  next takes =>
    rw [if_neg takes]
    exact selects _ _ added

end Resolver

end QueryProjection
