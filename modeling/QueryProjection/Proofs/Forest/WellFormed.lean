import QueryProjection.Proofs.Forest.Invariant
import QueryProjection.Proofs.Forest.Paths

set_option autoImplicit false

namespace QueryProjection

open Outcome

/-- The step says of its member what the type of the member says, and has no options unless it leads
to entities. -/
structure PathStep.Described (schema : Schema) (step : PathStep) : Prop where
  kind : schema.memberKind step.memberType = .ok step.memberKind
  collection : step.isCollection = step.memberType.isCollection
  navigates : ¬ step.IsPlain → schema.targetKind step.memberType = .ok .entity
  filtered : ∀ filter ∈ step.filter, step.element? = some filter.elementType

structure MemberPath.Sound (schema : Schema) (rootType : String) (path : MemberPath) : Prop where
  leads : path.Leads schema rootType
  described : ∀ step ∈ path, step.Described schema

namespace Forest

def Expands (schema : Schema) (maxExpandDepth : Nat) (path : MemberPath) : Prop :=
  path.length ≤ maxExpandDepth ∧
    ∃ last ∈ path.getLast?, schema.targetKind last.memberType = .ok .entity

structure WellFormed (schema : Schema) (rootType : String) (maxExpandDepth : Nat)
    (forest : Forest) : Prop where
  selectsApart : (forest.selects.map MemberPath.names).Nodup
  expansionsApart : (forest.expansions.map MemberPath.names).Nodup
  sound : ∀ path ∈ forest.expansions ++ forest.selects, path ≠ [] ∧ path.Sound schema rootType
  expands : ∀ path ∈ forest.expansions, Expands schema maxExpandDepth path

theorem addPath_apart {paths : List MemberPath} (apart : (paths.map MemberPath.names).Nodup)
    (path : MemberPath) : ((addPath paths path).map MemberPath.names).Nodup := by
  unfold addPath
  split
  next => exact apart
  next new =>
    rw [List.map_append, List.nodup_append]
    refine ⟨apart, by simp, ?_⟩
    simp only [List.map_cons, List.map_nil, List.mem_singleton, List.mem_map]
    rintro _ ⟨other, isOther, rfl⟩ _ rfl same
    exact new (List.any_eq_true.2 ⟨other, isOther, beq_iff_eq.2 same.symm⟩)

namespace WellFormed

variable {schema : Schema} {rootType : String} {maxExpandDepth : Nat} {forest : Forest}
  {path : MemberPath}

theorem empty : Forest.empty.WellFormed schema rootType maxExpandDepth where
  selectsApart := List.nodup_nil
  expansionsApart := List.nodup_nil
  sound := by simp [Forest.empty]
  expands := by simp [Forest.empty]

theorem addSelect (wellFormed : forest.WellFormed schema rootType maxExpandDepth)
    (some_ : path ≠ []) (sound : path.Sound schema rootType) :
    (forest.addSelect path).WellFormed schema rootType maxExpandDepth where
  selectsApart := addPath_apart wellFormed.selectsApart path
  expansionsApart := wellFormed.expansionsApart
  sound other isOther := by
    rcases List.mem_append.1 isOther with expanded | selected
    · exact wellFormed.sound other (List.mem_append_left _ expanded)
    · rcases mem_of_mem_addPath selected with earlier | rfl
      · exact wellFormed.sound other (List.mem_append_right _ earlier)
      · exact ⟨some_, sound⟩
  expands := wellFormed.expands

theorem addExpansion (wellFormed : forest.WellFormed schema rootType maxExpandDepth)
    (sound : path.Sound schema rootType) (expands : Expands schema maxExpandDepth path) :
    (forest.addExpansion path).WellFormed schema rootType maxExpandDepth where
  selectsApart := wellFormed.selectsApart
  expansionsApart := addPath_apart wellFormed.expansionsApart path
  sound other isOther := by
    rcases List.mem_append.1 isOther with expanded | selected
    · rcases mem_of_mem_addPath expanded with earlier | rfl
      · exact wellFormed.sound other (List.mem_append_left _ earlier)
      · refine ⟨?_, sound⟩
        rintro rfl
        obtain ⟨-, last, isLast, -⟩ := expands
        simp at isLast
    · exact wellFormed.sound other (List.mem_append_right _ selected)
  expands other isOther := by
    rcases mem_of_mem_addPath isOther with earlier | rfl
    · exact wellFormed.expands other earlier
    · exact expands

end WellFormed

end Forest

namespace Resolver

variable {resolver : Resolver} {rootType typeName element : String} {path target more : MemberPath}
  {segments : List String} {member : MemberDecl} {step : PathStep}

theorem stepOf_described (made : resolver.stepOf typeName member = .ok step) :
    step.Described resolver.schema := by
  obtain ⟨-, -, -, plain⟩ := stepOf_eq_ok made
  simp only [stepOf, bind_eq_ok, pure_eq_ok] at made
  obtain ⟨kind, isKind, rfl⟩ := made
  exact ⟨isKind, rfl, fun options => absurd plain options, by simp⟩

theorem followFrom_described (followed : resolver.followFrom path typeName segments = .ok target)
    (described : ∀ step ∈ path, step.Described resolver.schema) :
    ∀ step ∈ target, step.Described resolver.schema := by
  induction segments generalizing path typeName with
  | nil =>
    simp only [followFrom, Except.ok.injEq] at followed
    exact followed ▸ described
  | cons name rest ih =>
    obtain ⟨member, step, element, -, made, -, followed⟩ := followFrom_cons followed
    refine ih followed fun other isOther => ?_
    rcases List.mem_append.1 isOther with before | last
    · exact described other before
    · exact List.mem_singleton.1 last ▸ stepOf_described made

theorem follow_described (followed : resolver.follow path typeName segments = .ok target)
    (described : ∀ step ∈ path, step.Described resolver.schema) :
    ∀ step ∈ target, step.Described resolver.schema :=
  followFrom_described (follow_iff.1 followed).2 described

structure OnTheWay (schema : Schema) (rootType typeName : String) (path : MemberPath) : Prop where
  sound : path.Sound schema rootType
  ends : path.EndsAt rootType typeName

variable (here : OnTheWay resolver.schema rootType typeName path)

include here

theorem OnTheWay.append (some_ : more ≠ []) (leads : more.Leads resolver.schema typeName)
    (described : ∀ step ∈ path ++ more, step.Described resolver.schema)
    (ends : ∀ last ∈ more.getLast?, last.element? = some element) :
    OnTheWay resolver.schema rootType element (path ++ more) := by
  refine ⟨⟨here.sound.leads.append here.ends leads, described⟩, ?_⟩
  rw [MemberPath.endsAt_append path some_ rootType typeName, MemberPath.EndsAt,
    List.getLast?_eq_some_getLast some_]
  exact ends _ (List.getLast?_eq_some_getLast some_)

theorem expandTarget_onTheWay {filter : Option Filter} {arrangement : Arrangement}
    (leads : resolver.expandTarget path typeName segments filter arrangement =
      .ok (target, element)) :
    OnTheWay resolver.schema rootType element target ∧
      Forest.Expands resolver.schema resolver.maxExpandDepth target := by
  obtain ⟨within, before, last, rfl, walk, plain, toElement, entity, followed⟩ :=
    expandTarget_eq_ok leads
  have described := follow_described followed here.sound.described
  have isPlain : last.IsPlain := plain last (by simp)
  constructor
  · rw [List.append_assoc]
    have optioned : Walk resolver.schema typeName
        (before ++ [resolver.optionsOf element filter arrangement last]) := walk.withLast rfl rfl
    refine OnTheWay.append here (by simp) optioned.leads ?_ ?_
    · intro step isStep
      rw [← List.append_assoc] at isStep
      rcases List.mem_append.1 isStep with earlier | isLast
      · exact described step (List.mem_append_left _ earlier)
      · -- The options are those of the item, for the type that the step leads to.
        obtain rfl := List.mem_singleton.1 isLast
        obtain ⟨kind, collection, -, -⟩ := described last (by simp)
        refine ⟨kind, collection, fun _ => entity, fun bound isBound => ?_⟩
        obtain ⟨_, -, rfl⟩ := Option.map_eq_some_iff.1 isBound
        exact toElement
    · intro other isOther
      rw [List.getLast?_concat, Option.mem_some_iff] at isOther
      exact isOther ▸ toElement
  · exact ⟨within, _, List.getLast?_concat, entity⟩

theorem selectTarget_onTheWay {found : Option String}
    (leads : resolver.selectTarget path typeName segments = .ok (target, found)) :
    target ≠ [] ∧ target.Sound resolver.schema rootType ∧
      ∀ element, found = some element → OnTheWay resolver.schema rootType element target := by
  obtain ⟨added, some_, rfl, walk, -, toElement⟩ := selectTarget_eq_ok leads
  have described := follow_described (selectTarget_iff.1 leads).1 here.sound.described
  refine ⟨by simp [some_], ⟨here.sound.leads.append here.ends walk.leads, described⟩, ?_⟩
  intro element isFound
  obtain ⟨last, isLast, leadsLast⟩ := toElement element isFound
  refine OnTheWay.append here some_ walk.leads described fun other isOther => ?_
  cases Option.mem_unique isLast isOther
  exact leadsLast

theorem stepOf_sound {members : List MemberDecl}
    (listed : resolver.schema.members typeName = .ok members) (isMember : member ∈ members)
    (made : resolver.stepOf typeName member = .ok step) :
    (path ++ [step]).Sound resolver.schema rootType := by
  have isListed := stepOf_listedOn ⟨members, listed, isMember⟩ made
  have leads : MemberPath.Leads resolver.schema typeName [step] := by
    refine ⟨.inr isListed, ?_⟩
    cases step.element? with
    | none => rfl
    | some element => trivial
  refine ⟨here.sound.leads.append here.ends leads, fun other isOther => ?_⟩
  rcases List.mem_append.1 isOther with before | last
  · exact here.sound.described other before
  · exact List.mem_singleton.1 last ▸ stepOf_described made

omit here

theorem keeps_wellFormed (resolver : Resolver) (rootType : String) :
    resolver.Keeps (OnTheWay resolver.schema rootType)
      (Forest.WellFormed resolver.schema rootType resolver.maxExpandDepth) where
  expands here leads := by
    obtain ⟨there, expands⟩ := expandTarget_onTheWay here leads
    exact ⟨there, fun forest wellFormed => wellFormed.addExpansion there.sound expands⟩
  selects here leads forest wellFormed := by
    obtain ⟨some_, sound, -⟩ := selectTarget_onTheWay here leads
    exact wellFormed.addSelect some_ sound
  opens here leads := (selectTarget_onTheWay here leads).2.2 _ rfl
  selectsDefault here listed isMember _ made forest wellFormed :=
    wellFormed.addSelect (by simp) (stepOf_sound here listed isMember made)
  opensDefault here listed isMember _ leads _ made := by
    refine ⟨stepOf_sound here listed isMember made, ?_⟩
    rw [MemberPath.EndsAt, List.getLast?_concat]
    simp only [PathStep.element?, (stepOf_eq_ok made).2.2.1]
    exact leads

theorem OnTheWay.root (schema : Schema) (rootType : String) :
    OnTheWay schema rootType rootType [] :=
  ⟨⟨trivial, by simp⟩, rfl⟩

end Resolver

section Built

variable {schema : Schema} {rootType : String} {clause : Option Clause} {context : BindingContext}
  {maxExpandDepth : Nat} {forest : Forest}
  (built : Forest.build schema rootType clause context maxExpandDepth = .ok forest)

include built

theorem Forest.build_leads :
    ∀ path ∈ forest.expansions ++ forest.selects, path.Leads schema rootType := by
  have wellFormed := (Resolver.keeps_wellFormed _ rootType).build (.root schema rootType) .empty built
  exact fun path isPath => (wellFormed.sound path isPath).2.leads

theorem Forest.build_wellFormed : forest.WellFormed schema rootType maxExpandDepth :=
  (Resolver.keeps_wellFormed _ rootType).build (.root schema rootType) .empty built

end Built

def harborSchema : Schema :=
  ⟨[⟨"Place", .entity, none, [⟨"Name", .scalar .string⟩, ⟨"Country", .named "Place"⟩]⟩,
    ⟨"Harbor", .entity, some "Place",
      [⟨"Quays", .collection .list (.named "Quay")⟩, ⟨"Ships", .collection .list (.named "Ship")⟩]⟩,
    ⟨"Quay", .complex, none, [⟨"Length", .scalar .double⟩, ⟨"Berthed", .nullable (.named "Ship")⟩]⟩,
    ⟨"Ship", .entity, none, [⟨"Name", .scalar .string⟩, ⟨"Flag", .named "Place"⟩]⟩]⟩

def harborClause : Clause :=
  let named : Filter := .compare (.member "Name") .ne (.literal .null)
  ⟨false,
    [.path ["Name"] none, .path ["name"] none, .path ["Quays"] none, .path ["Quays", "Length"] none,
      .expand ["Quays", "Berthed"] (some ⟨false, [.path ["Name"] none]⟩) (some named)
        ⟨[], none, some 3⟩,
      .expand ["Quays", "Berthed"] none none ⟨[], none, none⟩,
      .expand ["Ships", "Flag"] none none ⟨[], none, none⟩]⟩

theorem Forest.build_wellFormed_harbor :
    ∃ forest, Forest.build harborSchema "Harbor" (some harborClause) ⟨false, none⟩ 2 = .ok forest ∧
      forest.selects.map MemberPath.names =
        [["Quays", "Berthed", "Name"], ["Ships", "Flag", "Name"], ["Name"], ["Quays", "Length"]] ∧
      forest.expansions.map MemberPath.names = [["Quays", "Berthed"], ["Ships", "Flag"]] ∧
      forest.WellFormed harborSchema "Harbor" 2 := by
  obtain ⟨forest, built, names⟩ := exists_of_toOption_any
    (Forest.build harborSchema "Harbor" (some harborClause) ⟨false, none⟩ 2)
    (fun forest => forest.selects.map MemberPath.names ==
        [["Quays", "Berthed", "Name"], ["Ships", "Flag", "Name"], ["Name"], ["Quays", "Length"]] &&
      forest.expansions.map MemberPath.names == [["Quays", "Berthed"], ["Ships", "Flag"]])
    (by decide +kernel)
  simp only [Bool.and_eq_true, beq_iff_eq] at names
  exact ⟨forest, built, names.1, names.2, Forest.build_wellFormed built⟩

end QueryProjection
