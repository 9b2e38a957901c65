import QueryProjection.Proofs.Forest.Walk
import QueryProjection.Proofs.Mapping.Includes
import QueryProjection.Proofs.Schema.Members

set_option autoImplicit false

namespace QueryProjection

open Outcome

namespace PathStep

def member (step : PathStep) : MemberDecl := ⟨step.memberName, step.memberType⟩

def ListedOn (schema : Schema) (typeName : String) (step : PathStep) : Prop :=
  step.declaringType = typeName ∧ schema.Lists typeName step.member

/-- The step is a member of its declaring type, in the one way or the other. -/
def BelongsTo (schema : Schema) (typeName : String) (step : PathStep) : Prop :=
  step.ResolvesOn schema typeName ∨ step.ListedOn schema typeName

theorem BelongsTo.declared {schema : Schema} {typeName : String} {step : PathStep}
    (belongs : step.BelongsTo schema typeName) : step.declaringType = typeName := by
  cases belongs with
  | inl resolves => exact resolves.1
  | inr listed => exact listed.1

theorem BelongsTo.eq_of_sameName {schema : Schema} {typeName : String} {step other : PathStep}
    (belongs : other.BelongsTo schema typeName) (resolves : step.ResolvesOn schema typeName)
    (listed : step.ListedOn schema typeName)
    (same : Text.sameName other.memberName step.memberName = true) : other.member = step.member := by
  cases belongs with
  | inl resolves' => exact Schema.eq_of_resolve resolves'.2 resolves.2 same
  | inr listed' => exact listed'.2.eq_of_sameName listed.2 same

end PathStep

def MemberPath.Leads (schema : Schema) : String → MemberPath → Prop
  | _, [] => True
  | typeName, step :: rest =>
      step.BelongsTo schema typeName ∧
        match step.element? with
        | some element => Leads schema element rest
        | none => rest = []

theorem Walk.leads {schema : Schema} {typeName : String} {path : MemberPath}
    (walk : Walk schema typeName path) : path.Leads schema typeName := by
  induction walk with
  | nil typeName => trivial
  | @last typeName step resolves =>
    refine ⟨.inl resolves, ?_⟩
    cases step.element? with
    | none => rfl
    | some element => trivial
  | cons resolves leads later ih =>
    refine ⟨.inl resolves, ?_⟩
    rw [leads]
    exact ih

namespace Include

variable {schema : Schema} {typeName : String}

def namesOf (schema : Schema) : MemberPath → Outcome (List String)
  | [] => .ok []
  | step :: rest => do
      let member ← schema.resolve step.declaringType step.memberName
      let names ← namesOf schema rest
      return member.name :: names

theorem namesOf_cons {step : PathStep} {rest : MemberPath} {member : MemberDecl}
    {names : List String}
    (resolved : schema.resolve step.declaringType step.memberName = .ok member)
    (named : namesOf schema rest = .ok names) :
    namesOf schema (step :: rest) = .ok (member.name :: names) := by
  simp only [namesOf, resolved, named, ok_bind]
  rfl

theorem membersOf_selected (sequence : Expr) (param : Parameter) (body : Expr) :
    membersOf (sequence.selected ⟨param, body⟩) = (do
      return (← membersOf sequence) ++ (← membersOf body)) := by
  simp only [Expr.selected, Expr.apply, Expr.ofLambda, membersOf]

theorem membersOf_chain {path : MemberPath} {depth : Nat} {target expr : Expr}
    {before : List String} (reads : membersOf target = .ok before)
    (chained : chain schema depth target path = .ok expr) :
    ∃ names, namesOf schema path = .ok names ∧ membersOf expr = .ok (before ++ names) := by
  induction path generalizing depth target before expr with
  | nil =>
    simp only [chain, Except.ok.injEq] at chained
    subst chained
    exact ⟨[], rfl, by simpa using reads⟩
  | cons step rest ih =>
    cases rest with
    | nil =>
      simp only [chain, bind_eq_ok, pure_eq_ok] at chained
      obtain ⟨member, resolved, rfl⟩ := chained
      refine ⟨[member.name], namesOf_cons resolved rfl, ?_⟩
      simp only [membersOf, reads, ok_bind]
      rfl
    | cons next rest =>
      simp only [chain, bind_eq_ok] at chained
      obtain ⟨member, resolved, chained⟩ := chained
      have accessed : membersOf (.member target member.name member.ty) =
          .ok (before ++ [member.name]) := by
        simp only [membersOf, reads, ok_bind]
        rfl
      split at chained
      next =>
        -- The item of a selection is a new start, so nothing stands before what its body reads.
        simp only [bind_eq_ok, pure_eq_ok] at chained
        obtain ⟨body, inner, rfl⟩ := chained
        have fresh (item : Parameter) : membersOf (.parameter item) = .ok [] := by
          simp only [membersOf]
        obtain ⟨names, named, reads'⟩ := ih (fresh _) inner
        refine ⟨member.name :: names, namesOf_cons resolved named, ?_⟩
        rw [membersOf_selected, accessed, reads']
        simp [pure, Except.pure]
      next =>
        obtain ⟨names, named, reads'⟩ := ih accessed chained
        refine ⟨member.name :: names, namesOf_cons resolved named, ?_⟩
        rw [reads']
        simp

theorem membersRead_ofPath {rootType : String} {path : MemberPath} {include_ : Lambda}
    (made : ofPath schema rootType path = .ok include_) :
    ∃ names, namesOf schema path = .ok names ∧ membersRead include_ = .ok names := by
  simp only [ofPath, bind_eq_ok, pure_eq_ok] at made
  obtain ⟨expr, chained, rfl⟩ := made
  have fresh : membersOf (.parameter (rootParameter rootType)) = .ok [] := by
    simp only [membersOf]
  obtain ⟨names, named, reads⟩ := membersOf_chain fresh chained
  exact ⟨names, named, by simpa [membersRead, membersOf] using reads⟩

theorem includeTree_eq_ok {includes : List Lambda} {tree : IncludeTree}
    (made : Mapping.includeTree includes = .ok tree) :
    ∃ spelled, List.Forall₂ (fun include_ names => membersRead include_ = .ok names) includes spelled ∧
      tree = IncludeTree.insertAll spelled .empty := by
  unfold Mapping.includeTree at made
  generalize IncludeTree.empty = start at made ⊢
  induction includes generalizing start with
  | nil =>
    simp only [List.foldlM_nil, pure_eq_ok] at made
    exact ⟨[], .nil, made.symm⟩
  | cons include_ rest ih =>
    simp only [List.foldlM_cons, bind_eq_ok, pure_eq_ok] at made
    obtain ⟨_, ⟨names, reads, rfl⟩, made⟩ := made
    obtain ⟨spelled, later, rfl⟩ := ih _ made
    exact ⟨names :: spelled, .cons reads later, rfl⟩

theorem collect_eq_ok {rootType : String} {wanted : MemberPath → Outcome Bool}
    {paths : List MemberPath} {includes : List Lambda}
    (collected : collect schema rootType wanted paths = .ok includes) :
    ∃ kept, (∀ path, path ∈ kept ↔ path ∈ paths ∧ wanted path = .ok true) ∧
      List.Forall₂ (fun path include_ => ofPath schema rootType path = .ok include_) kept includes := by
  induction paths generalizing includes with
  | nil =>
    simp only [collect, Except.ok.injEq] at collected
    subst collected
    exact ⟨[], by simp, .nil⟩
  | cons path rest ih =>
    simp only [collect, bind_eq_ok] at collected
    obtain ⟨isWanted, asked, collected⟩ := collected
    cases isWanted with
    | false =>
      obtain ⟨kept, isKept, made⟩ := ih (by simpa using collected)
      refine ⟨kept, fun other => ?_, made⟩
      rw [isKept, List.mem_cons]
      constructor
      · rintro ⟨later, wants⟩
        exact ⟨.inr later, wants⟩
      · rintro ⟨rfl | later, wants⟩
        · simp [asked] at wants
        · exact ⟨later, wants⟩
    | true =>
      simp only [if_true, bind_eq_ok, pure_eq_ok] at collected
      obtain ⟨first, made, others, later, rfl⟩ := collected
      obtain ⟨kept, isKept, madeLater⟩ := ih later
      refine ⟨path :: kept, fun other => ?_, .cons made madeLater⟩
      rw [List.mem_cons, isKept, List.mem_cons]
      constructor
      · rintro (rfl | ⟨later, wants⟩)
        · exact ⟨.inl rfl, asked⟩
        · exact ⟨.inr later, wants⟩
      · rintro ⟨rfl | later, wants⟩
        · exact .inl rfl
        · exact .inr ⟨later, wants⟩

theorem namesOf_walk {path : MemberPath} (walk : Walk schema typeName path) :
    namesOf schema path = .ok path.names := by
  induction walk with
  | nil typeName => rfl
  | @last typeName step resolves =>
    have own := resolves.2
    rw [← resolves.1] at own
    exact namesOf_cons own rfl
  | cons resolves leads later ih =>
    have own := resolves.2
    rw [← resolves.1] at own
    exact namesOf_cons own ih

theorem apart_of_leads {path other : MemberPath} {names : List String}
    (walk : Walk schema typeName path)
    (listed : ∀ step ∈ path, step.ListedOn schema step.declaringType)
    (leads : other.Leads schema typeName) (named : namesOf schema other = .ok names) :
    IncludeTree.Apart path.names names := by
  induction path generalizing typeName other names with
  | nil => trivial
  | cons step rest ih =>
    cases other with
    | nil =>
      simp only [namesOf, Except.ok.injEq] at named
      subst named
      trivial
    | cons step' rest' =>
      simp only [namesOf, bind_eq_ok, pure_eq_ok] at named
      obtain ⟨member, resolved, others, named, rfl⟩ := named
      obtain ⟨belongs, leads⟩ := leads
      obtain ⟨listedStep, listedRest⟩ := List.forall_mem_cons.1 listed
      rw [belongs.declared] at resolved
      have resolves := walk.first
      -- The include names the member that the other step has in the declaring type.
      have canonical (same : Text.sameName member.name step.memberName = true) :
          member = step.member :=
        Schema.eq_of_resolve (Schema.resolve_own_name resolved) resolves.2 same
      refine ⟨fun same => congrArg MemberDecl.name (canonical same), fun same => ?_⟩
      have isStep := canonical (by rw [same]; exact Text.sameName_refl _)
      have sameStep := Schema.sameName_of_resolve resolved
      rw [Text.sameName_comm, isStep] at sameStep
      have alike := belongs.eq_of_sameName resolves (resolves.1 ▸ listedStep) sameStep
      have sameElement : step'.element? = step.element? :=
        congrArg (fun member => member.ty.typeName?) alike
      cases walk with
      | last _ => trivial
      | cons _ toElement later =>
        rw [sameElement, toElement] at leads
        exact ih later listedRest leads named

end Include

namespace Forest

/-- The path is an expansion, or it is selected and only navigates where there are expansions. -/
def Includes (schema : Schema) (forest : Forest) (path : MemberPath) : Prop :=
  path ∈ forest.expansions ∨ path ∈ forest.selects ∧
    Include.liesOnExpansions schema forest.expansions [] path = .ok true

variable {schema : Schema} {rootType : String} {forest : Forest} {includes : List Lambda}
  {tree : IncludeTree}

theorem includeTree_eq_ok (included : Include.ofForest schema rootType forest = .ok includes)
    (made : Mapping.includeTree includes = .ok tree) :
    ∃ paths spelled, (∀ path, path ∈ paths ↔ forest.Includes schema path) ∧
      List.Forall₂ (fun path names => Include.namesOf schema path = .ok names) paths spelled ∧
      tree = IncludeTree.insertAll spelled .empty := by
  simp only [Include.ofForest, bind_eq_ok, pure_eq_ok] at included
  obtain ⟨-, -, expansions, fromExpansions, selects, fromSelects, rfl⟩ := included
  obtain ⟨spelled, reads, rfl⟩ := Include.includeTree_eq_ok made
  obtain ⟨expanded, isExpanded, madeExpansions⟩ := Include.collect_eq_ok fromExpansions
  obtain ⟨selected, isSelected, madeSelects⟩ := Include.collect_eq_ok fromSelects
  refine ⟨expanded ++ selected, spelled, ?_, ?_, rfl⟩
  · intro path
    rw [List.mem_append, isExpanded, isSelected]
    simp [Includes]
  · refine forall₂_trans ?_ (List.rel_append madeExpansions madeSelects) reads
    intro path include_ names made read
    obtain ⟨names', named, read'⟩ := Include.membersRead_ofPath made
    cases read.symm.trans read'
    exact named

theorem covers_of_includes {path later : MemberPath}
    (included : Include.ofForest schema rootType forest = .ok includes)
    (made : Mapping.includeTree includes = .ok tree)
    (leads : ∀ other ∈ forest.expansions ++ forest.selects, other.Leads schema rootType)
    (wanted : forest.Includes schema (path ++ later)) (walk : Walk schema rootType (path ++ later))
    (listed : ∀ step ∈ path, step.ListedOn schema step.declaringType) :
    tree.Covers path.names := by
  obtain ⟨paths, spelled, isIncluded, named, rfl⟩ := includeTree_eq_ok included made
  apply IncludeTree.covers_of_mem
  · obtain ⟨names, isSpelled, namesPath⟩ :=
      exists_of_forall₂ named ((isIncluded (path ++ later)).2 wanted)
    cases namesPath.symm.trans (Include.namesOf_walk walk)
    rwa [MemberPath.names, List.map_append] at isSpelled
  · intro names isSpelled
    obtain ⟨other, isOther, namesOther⟩ := exists_of_forall₂ named.flip isSpelled
    refine Include.apart_of_leads walk.start listed (leads other ?_) namesOther
    rcases (isIncluded other).1 isOther with expanded | ⟨selected, -⟩
    · exact List.mem_append_left _ expanded
    · exact List.mem_append_right _ selected

end Forest

end QueryProjection
