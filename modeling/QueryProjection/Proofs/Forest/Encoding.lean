import QueryProjection.Proofs.Expr.Places
import QueryProjection.Proofs.Forest.Inclusion
import QueryProjection.Proofs.Forest.WellFormed

set_option autoImplicit false

namespace QueryProjection

open Outcome

theorem PathStep.BelongsTo.resolves {schema : Schema} {typeName : String} {step : PathStep}
    (belongs : step.BelongsTo schema typeName) :
    ∃ member, schema.resolve typeName step.memberName = .ok member := by
  cases belongs with
  | inl resolves => exact ⟨_, resolves.2⟩
  | inr listed =>
    have resolves := Schema.resolve_of_lists listed.2
    exact resolves

namespace MemberPath

variable {schema : Schema} {typeName : String} {path : MemberPath}

theorem Leads.resolves (leads : path.Leads schema typeName) :
    ∀ step ∈ path, ∃ member, schema.resolve step.declaringType step.memberName = .ok member := by
  induction path generalizing typeName with
  | nil => simp
  | cons step rest ih =>
    obtain ⟨belongs, leads⟩ := leads
    refine List.forall_mem_cons.2 ⟨belongs.declared ▸ belongs.resolves, ?_⟩
    split at leads
    next element _ => exact ih leads
    next => simp [leads]

theorem Leads.targetKind (leads : path.Leads schema typeName)
    (atEnd : ∀ last ∈ path.getLast?, ∃ kind, schema.targetKind last.memberType = .ok kind) :
    ∀ step ∈ path, ∃ kind, schema.targetKind step.memberType = .ok kind := by
  induction path generalizing typeName with
  | nil => simp
  | cons step rest ih =>
    cases rest with
    | nil => exact List.forall_mem_cons.2 ⟨atEnd step rfl, by simp⟩
    | cons next rest =>
      obtain ⟨-, leads⟩ := leads
      split at leads
      next element toElement =>
        obtain ⟨member, resolved⟩ := leads.1.resolves
        obtain ⟨typeDecl, registered⟩ := Schema.get_of_resolve resolved
        exact List.forall_mem_cons.2
          ⟨Schema.targetKind_of_get toElement registered, ih leads (by simpa using atEnd)⟩
      next => simp at leads

end MemberPath

def innermostRules : PlaceRules Declared where
  reads declared param := declared.head? = some param
  constructs _ := True
  opens declared param inside :=
    (∀ other ∈ declared, other.name ≠ param.name) ∧ inside = param :: declared

namespace Include

variable {schema : Schema} {rootType typeName : String} {path : MemberPath} {include_ : Lambda}
  {expansions : List MemberPath}

theorem nameAtDepth_injective {depth depth' : Nat} (same : nameAtDepth depth = nameAtDepth depth') :
    depth = depth' := by
  have lengths := congrArg (fun name : String => name.toList.length) same
  simpa [nameAtDepth] using lengths

def DeclaredDownTo (depth : Nat) (declared : Declared) : Prop :=
  ∀ other ∈ declared, ∃ above ≤ depth, other.name = nameAtDepth above

theorem chain_obeys {depth : Nat} {target expr : Expr} {declared : Declared}
    (chained : chain schema depth target path = .ok expr) (around : DeclaredDownTo depth declared)
    (obeys : target.Obeys innermostRules declared) : expr.Obeys innermostRules declared := by
  induction path generalizing depth target expr declared with
  | nil =>
    simp only [chain, Except.ok.injEq] at chained
    exact chained ▸ obeys
  | cons step rest ih =>
    cases rest with
    | nil =>
      simp only [chain, bind_eq_ok, pure_eq_ok] at chained
      obtain ⟨member, -, rfl⟩ := chained
      exact obeys
    | cons next rest =>
      simp only [chain, bind_eq_ok] at chained
      obtain ⟨member, -, chained⟩ := chained
      split at chained
      next =>
        simp only [bind_eq_ok, pure_eq_ok] at chained
        obtain ⟨body, inner, rfl⟩ := chained
        -- The item is one level below everything that is declared around the collection.
        generalize isItem : (⟨nameAtDepth (depth + 1), member.ty.elementType⟩ : Parameter) = item at inner
        have named : item.name = nameAtDepth (depth + 1) := by rw [← isItem]
        have inside : DeclaredDownTo (depth + 1) (item :: declared) := by
          refine List.forall_mem_cons.2 ⟨⟨depth + 1, Nat.le_refl _, named⟩, fun other isOther => ?_⟩
          obtain ⟨above, isAbove, same⟩ := around other isOther
          exact ⟨above, Nat.le_succ_of_le isAbove, same⟩
        have new : ∀ other ∈ declared, other.name ≠ item.name := by
          intro other isOther same
          obtain ⟨above, isAbove, isName⟩ := around other isOther
          have equal := nameAtDepth_injective (isName.symm.trans (same.trans named))
          omega
        exact ⟨obeys, ⟨item :: declared, ⟨new, rfl⟩, ih inner inside rfl⟩, trivial⟩
      next => exact ih chained around obeys

theorem exists_chain
    (resolves : ∀ step ∈ path, ∃ member, schema.resolve step.declaringType step.memberName = .ok member)
    (depth : Nat) (target : Expr) : ∃ expr, chain schema depth target path = .ok expr := by
  induction path generalizing depth target with
  | nil => exact ⟨target, by simp only [chain]⟩
  | cons step rest ih =>
    obtain ⟨⟨member, resolved⟩, later⟩ := List.forall_mem_cons.1 resolves
    cases rest with
    | nil => exact ⟨_, by simp only [chain, resolved, ok_bind]; rfl⟩
    | cons next rest =>
      simp only [chain, resolved, ok_bind]
      split
      next =>
        obtain ⟨body, inner⟩ := ih later (depth + 1)
          (.parameter ⟨nameAtDepth (depth + 1), member.ty.elementType⟩)
        exact ⟨_, by rw [inner, ok_bind]; rfl⟩
      next => exact ih later depth _

theorem foldCase_namesOf {names : List String} (named : namesOf schema path = .ok names) :
    names.map Text.foldCase = path.names.map Text.foldCase := by
  induction path generalizing names with
  | nil =>
    simp only [namesOf, Except.ok.injEq] at named
    subst named
    rfl
  | cons step rest ih =>
    simp only [namesOf, bind_eq_ok, pure_eq_ok] at named
    obtain ⟨member, resolved, others, named, rfl⟩ := named
    have first := (Text.sameName_iff _ _).1 (Schema.sameName_of_resolve resolved)
    rw [MemberPath.names, List.map_cons, List.map_cons, List.map_cons, first, ih named]
    rfl

/-- A lambda on the root type that reads back as the path, whatever the case of the names. Each of its
parameters is read in the body of its own lambda only. -/
structure Encodes (rootType : String) (path : MemberPath) (include_ : Lambda) : Prop where
  onRoot : include_.parameter.ty = .named rootType
  readsBack : ∃ names, membersRead include_ = .ok names ∧
    names.map Text.foldCase = path.names.map Text.foldCase
  innermost : (Expr.ofLambda include_).Obeys innermostRules []

theorem encodes_of_ofPath (made : ofPath schema rootType path = .ok include_) :
    Encodes rootType path include_ := by
  obtain ⟨names, named, reads⟩ := membersRead_ofPath made
  simp only [ofPath, bind_eq_ok, pure_eq_ok] at made
  obtain ⟨body, chained, rfl⟩ := made
  refine ⟨rfl, ⟨names, reads, foldCase_namesOf named⟩, [rootParameter rootType], ⟨by simp, rfl⟩, ?_⟩
  have root : DeclaredDownTo 0 [rootParameter rootType] := by
    simp [DeclaredDownTo, rootParameter]
  have starts : (Expr.parameter (rootParameter rootType)).Obeys innermostRules [rootParameter rootType] :=
    rfl
  have inner := chain_obeys chained root starts
  exact inner

def NavigatesAlong (schema : Schema) (expansions : List MemberPath) (path : MemberPath) : Prop :=
  ∀ start step rest, path = start ++ step :: rest → schema.targetKind step.memberType = .ok .entity →
    ∃ expansion ∈ expansions, MemberPath.startsWith expansion (start ++ [step]) = true

theorem exists_liesOnExpansions (expansions : List MemberPath)
    (known : ∀ step ∈ path, ∃ kind, schema.targetKind step.memberType = .ok kind)
    (before : MemberPath) : ∃ verdict, liesOnExpansions schema expansions before path = .ok verdict := by
  induction path generalizing before with
  | nil => exact ⟨true, rfl⟩
  | cons step rest ih =>
    obtain ⟨⟨kind, isKind⟩, later⟩ := List.forall_mem_cons.1 known
    simp only [liesOnExpansions, isKind, ok_bind]
    split
    next =>
      split
      next => exact ih later _
      next => exact ⟨false, rfl⟩
    next => exact ih later _

theorem liesOnExpansions_of_along
    (known : ∀ step ∈ path, ∃ kind, schema.targetKind step.memberType = .ok kind)
    {before : MemberPath}
    (along : ∀ start step rest, path = start ++ step :: rest →
      schema.targetKind step.memberType = .ok .entity →
        ∃ expansion ∈ expansions,
          MemberPath.startsWith expansion (before.reverse ++ start ++ [step]) = true) :
    liesOnExpansions schema expansions before path = .ok true := by
  induction path generalizing before with
  | nil => rfl
  | cons step rest ih =>
    obtain ⟨⟨kind, isKind⟩, knownLater⟩ := List.forall_mem_cons.1 known
    have later : liesOnExpansions schema expansions (step :: before) rest = .ok true := by
      refine ih knownLater fun start next after split navigates => ?_
      obtain ⟨expansion, isExpansion, starts⟩ :=
        along (step :: start) next after (by rw [split, List.cons_append]) navigates
      exact ⟨expansion, isExpansion, by simpa using starts⟩
    simp only [liesOnExpansions, isKind, ok_bind, later]
    split
    next navigates =>
      obtain ⟨expansion, isExpansion, starts⟩ := along [] step rest rfl (navigates ▸ isKind)
      rw [if_pos]
      exact List.any_eq_true.2 ⟨expansion, isExpansion, by simpa using starts⟩
    next => rfl

open Classical in
theorem liesOnExpansions_eq
    (known : ∀ step ∈ path, ∃ kind, schema.targetKind step.memberType = .ok kind) :
    liesOnExpansions schema expansions [] path = .ok (decide (NavigatesAlong schema expansions path)) := by
  by_cases along : NavigatesAlong schema expansions path
  · rw [decide_eq_true along]
    exact liesOnExpansions_of_along known along
  · rw [decide_eq_false along]
    obtain ⟨verdict, isVerdict⟩ := exists_liesOnExpansions expansions known []
    cases verdict with
    | false => exact isVerdict
    | true =>
      refine absurd ?_ along
      rintro start step rest rfl navigates
      exact expansion_of_liesOnExpansions isVerdict navigates

theorem collect_eq_mapM {wanted : MemberPath → Outcome Bool} (keeps : MemberPath → Bool)
    {paths : List MemberPath} (asked : ∀ path ∈ paths, wanted path = .ok (keeps path)) :
    collect schema rootType wanted paths = (paths.filter keeps).mapM (ofPath schema rootType) := by
  induction paths with
  | nil => rfl
  | cons path rest ih =>
    obtain ⟨askedFirst, askedRest⟩ := List.forall_mem_cons.1 asked
    simp only [collect, askedFirst, ok_bind, ih askedRest]
    cases kept : keeps path with
    | true => simp [kept]
    | false => simp [kept]

theorem mapM_ofPath_encodes (rootType : String) {paths : List MemberPath}
    (resolves : ∀ path ∈ paths, ∀ step ∈ path,
      ∃ member, schema.resolve step.declaringType step.memberName = .ok member) :
    ∃ includes, paths.mapM (ofPath schema rootType) = .ok includes ∧
      List.Forall₂ (Encodes rootType) paths includes := by
  have made : ∀ path ∈ paths, ∃ include_, ofPath schema rootType path = .ok include_ := by
    intro path isPath
    obtain ⟨body, chained⟩ := exists_chain (resolves path isPath) 0 (.parameter (rootParameter rootType))
    exact ⟨_, by rw [ofPath, chained]; rfl⟩
  obtain ⟨includes, areIncludes⟩ := mapM_exists_iff.2 made
  exact ⟨includes, areIncludes, (mapM_eq_ok.1 areIncludes).imp fun _ _ => encodes_of_ofPath⟩

end Include

namespace Resolver

theorem keeps_targetKind (resolver : Resolver) :
    resolver.Keeps (fun _ _ => True) fun forest => ∀ path ∈ forest.selects, ∀ last ∈ path.getLast?,
      ∃ kind, resolver.schema.targetKind last.memberType = .ok kind where
  selectsDefault := by
    intro typeName path members member step _ _ _ primitive made forest known other isOther
    rcases Forest.mem_of_mem_addPath isOther with earlier | rfl
    · exact known other earlier
    · simpa [(stepOf_eq_ok made).2.2.1] using ⟨_, primitive⟩
  opensDefault _ _ _ _ _ _ _ := trivial
  expands _ _ := ⟨trivial, fun _ known => known⟩
  selects := by
    intro typeName path segments target _ leads forest known other isOther
    rcases Forest.mem_of_mem_addPath isOther with earlier | rfl
    · exact known other earlier
    · obtain ⟨-, kind, isKind, -⟩ := selectTarget_iff.1 leads
      intro last isLast
      rw [Option.mem_def] at isLast
      exact ⟨kind, by simpa [isLast] using isKind⟩
  opens _ _ := trivial

end Resolver

open Classical in
/-- A forest has an include for every expansion and then one for every selected path that navigates
along expansions only, each of which encodes its path. -/
theorem Forest.includes_encode {schema : Schema} {rootType : String} {clause : Option Clause}
    {context : BindingContext} {maxExpandDepth : Nat} {forest : Forest}
    (built : Forest.build schema rootType clause context maxExpandDepth = .ok forest) :
    ∃ includes, Include.ofForest schema rootType forest = .ok includes ∧
      List.Forall₂ (Include.Encodes rootType)
        (forest.expansions ++
          forest.selects.filter fun path => Include.NavigatesAlong schema forest.expansions path)
        includes := by
  have leads := Forest.build_leads built
  have known : ∀ path ∈ forest.selects, ∀ step ∈ path,
      ∃ kind, schema.targetKind step.memberType = .ok kind := by
    intro path isPath
    have atEnd := (Resolver.keeps_targetKind ⟨schema, context, maxExpandDepth⟩).build trivial
      (by simp [Forest.empty]) built
    exact (leads path (List.mem_append_right _ isPath)).targetKind (atEnd path isPath)
  have kept : ∀ path ∈ forest.selects.filter fun path =>
      Include.NavigatesAlong schema forest.expansions path, path.Leads schema rootType :=
    fun path isKept => leads path (List.mem_append_right _ (List.mem_filter.1 isKept).1)
  obtain ⟨root, isRoot, -⟩ := bind_eq_ok.1 built
  obtain ⟨expanded, areExpanded, encodeExpanded⟩ := Include.mapM_ofPath_encodes rootType
    fun path isPath => (leads path (List.mem_append_left _ isPath)).resolves
  obtain ⟨selected, areSelected, encodeSelected⟩ := Include.mapM_ofPath_encodes rootType
    fun path isKept => (kept path isKept).resolves
  refine ⟨expanded ++ selected, ?_, List.rel_append encodeExpanded encodeSelected⟩
  rw [Include.ofForest, isRoot, Include.collect_eq_mapM (fun _ => true) fun _ _ => rfl,
    Include.collect_eq_mapM _ fun path isPath => Include.liesOnExpansions_eq (known path isPath),
    List.filter_true, areExpanded, areSelected]
  rfl

def voyageClause : Clause :=
  ⟨false, [.path ["name"] none, .path ["Quays", "Length"] none, .path ["Country"] none,
    .expand ["Quays", "Berthed"] (some ⟨false, [.path ["Flag"] none]⟩) none ⟨[], none, none⟩,
    .expand ["ships", "flag"] none none ⟨[], none, none⟩]⟩

open Classical in
theorem Forest.includes_encode_voyage :
    ∃ forest includes, Forest.build harborSchema "Harbor" (some voyageClause) ⟨false, none⟩ 2 = .ok forest ∧
      Include.ofForest harborSchema "Harbor" forest = .ok includes ∧
      includes.map (fun include_ => (Expr.ofLambda include_).toText) =
        ["i => Convert(i.Quays.Select(i0 => i0.Berthed), Object)",
          "i => Convert(i.Ships.Select(i0 => i0.Flag), Object)",
          "i => Convert(i.Ships.Select(i0 => i0.Flag.Name), Object)", "i => Convert(i.Name, Object)",
          "i => Convert(i.Quays.Select(i0 => i0.Length), Object)"] ∧
      List.Forall₂ (Include.Encodes "Harbor")
        (forest.expansions ++
          forest.selects.filter fun path => Include.NavigatesAlong harborSchema forest.expansions path)
        includes := by
  obtain ⟨⟨forest, includes⟩, made, texts⟩ := exists_of_toOption_any (do
    let forest ← Forest.build harborSchema "Harbor" (some voyageClause) ⟨false, none⟩ 2
    let includes ← Include.ofForest harborSchema "Harbor" forest
    return (forest, includes))
    (fun made => made.2.map (fun include_ => (Expr.ofLambda include_).toText) ==
        ["i => Convert(i.Quays.Select(i0 => i0.Berthed), Object)",
          "i => Convert(i.Ships.Select(i0 => i0.Flag), Object)",
          "i => Convert(i.Ships.Select(i0 => i0.Flag.Name), Object)", "i => Convert(i.Name, Object)",
          "i => Convert(i.Quays.Select(i0 => i0.Length), Object)"])
    (by decide +kernel)
  simp only [bind_eq_ok, pure_eq_ok] at made
  obtain ⟨_, built, _, isIncluded, same⟩ := made
  cases same
  obtain ⟨_, isIncluded', encode⟩ := Forest.includes_encode built
  cases isIncluded.symm.trans isIncluded'
  exact ⟨forest, includes, built, isIncluded, beq_iff_eq.1 texts, encode⟩

end QueryProjection
