import QueryProjection.Proofs.Evaluation.Renaming

set_option autoImplicit false

namespace QueryProjection

theorem countP_longer_lt {taken : List String} {candidate : String} (member : candidate ∈ taken) :
    taken.countP (fun name => (candidate ++ "0").length ≤ name.length) <
      taken.countP (fun name => candidate.length ≤ name.length) := by
  obtain ⟨before, after, rfl⟩ := List.append_of_mem member
  have weaker : ∀ names : List String,
      names.countP (fun name => (candidate ++ "0").length ≤ name.length) ≤
        names.countP (fun name => candidate.length ≤ name.length) := by
    intro names
    apply List.countP_mono_left
    intro name _ longer
    simp only [String.length_append, decide_eq_true_eq] at longer ⊢
    omega
  have first := weaker before
  have last := weaker after
  have lengthened : ¬ (candidate ++ "0").length ≤ candidate.length := by
    have one : "0".length = 1 := rfl
    rw [String.length_append, one]
    omega
  simp only [List.countP_append, List.countP_cons, decide_eq_true_eq, if_neg lengthened,
    Nat.le_refl, if_true]
  omega

theorem freshName_not_mem (taken : List String) (fuel : Nat) (candidate : String)
    (enough : taken.countP (fun name => candidate.length ≤ name.length) ≤ fuel) :
    freshName taken fuel candidate ∉ taken := by
  induction fuel generalizing candidate with
  | zero =>
    intro member
    have none_ : taken.countP (fun name => candidate.length ≤ name.length) = 0 := by omega
    have shorter := List.countP_eq_zero.1 none_ candidate member
    simp at shorter
  | succ fuel ih =>
    simp only [freshName]
    split
    next member =>
      apply ih
      have fewer := countP_longer_lt (by simpa using member)
      omega
    next new => simpa using new

theorem freshName_new (taken : List String) (candidate : String) :
    freshName taken taken.length candidate ∉ taken :=
  freshName_not_mem taken _ candidate List.countP_le_length

theorem plainName_plain (name : String) : (plainName name).toList.head? ≠ some '$' := by
  unfold plainName
  dsimp only
  split
  next => decide
  next =>
    rw [String.toList_ofList]
    intro dollar
    have dropped := List.head?_dropWhile_not (fun c => c == '$') name.toList
    simp [dollar] at dropped

theorem freshName_plain {candidate : String} (plain : candidate.toList.head? ≠ some '$')
    (taken : List String) (fuel : Nat) :
    (freshName taken fuel candidate).toList.head? ≠ some '$' := by
  induction fuel generalizing candidate with
  | zero => exact plain
  | succ fuel ih =>
    simp only [freshName]
    split
    next =>
      refine ih ?_
      -- Lengthening an empty name starts it with a zero.
      cases spelled : candidate.toList with
      | nil => simp [spelled]
      | cons c rest => simpa [spelled] using plain
    next => exact plain

namespace Renaming

structure Fresh (plain taken : List String) (names : Renaming) : Prop where
  plain_taken : plain ⊆ taken
  reserved : ∀ entry ∈ names, entry.1.isReserved = true
  new_taken : ∀ entry ∈ names, entry.2.name ∈ taken
  not_plain : ∀ entry ∈ names, entry.2.name ∉ plain
  apart : ∀ entry ∈ names, ∀ other ∈ names, entry.2.name = other.2.name → entry.1 = other.1

theorem extendRenaming_fresh {plain taken : List String} {names : Renaming}
    (fresh : Fresh plain taken names) (params : List Parameter) :
    (∃ taken', Fresh plain taken' (extendRenaming taken names params)) ∧
      (∀ param : Parameter, (names.lookup param).isSome →
        ((extendRenaming taken names params).lookup param).isSome) ∧
      ∀ param ∈ params, param.isReserved = true →
        ((extendRenaming taken names params).lookup param).isSome := by
  induction params generalizing taken names with
  | nil => exact ⟨⟨taken, fresh⟩, fun param held => held, by simp⟩
  | cons param rest ih =>
    simp only [extendRenaming]
    split
    next needed =>
      rw [Bool.and_eq_true] at needed
      have new := freshName_new taken (plainName param.name)
      generalize freshName taken taken.length (plainName param.name) = name at new
      -- The chosen name counts as taken from here on, which keeps the later ones apart from it.
      have extended : Fresh plain (name :: taken) (names ++ [(param, ⟨name, param.ty⟩)]) := by
        constructor
        · exact fun other isPlain => List.mem_cons_of_mem _ (fresh.plain_taken isPlain)
        · intro entry member
          rcases List.mem_append.1 member with held | added
          · exact fresh.reserved entry held
          · rw [List.mem_singleton.1 added]
            exact needed.1
        · intro entry member
          rcases List.mem_append.1 member with held | added
          · exact List.mem_cons_of_mem _ (fresh.new_taken entry held)
          · rw [List.mem_singleton.1 added]
            exact List.mem_cons_self
        · intro entry member
          rcases List.mem_append.1 member with held | added
          · exact fresh.not_plain entry held
          · rw [List.mem_singleton.1 added]
            exact fun isPlain => new (fresh.plain_taken isPlain)
        · intro entry member other member' same
          rcases List.mem_append.1 member with held | added <;>
            rcases List.mem_append.1 member' with held' | added'
          · exact fresh.apart entry held other held' same
          · rw [List.mem_singleton.1 added'] at same
            exact absurd (fresh.new_taken entry held) (same ▸ new)
          · rw [List.mem_singleton.1 added] at same
            exact absurd (fresh.new_taken other held') (same ▸ new)
          · rw [List.mem_singleton.1 added, List.mem_singleton.1 added']
      obtain ⟨isFresh, keeps, covers⟩ := ih extended
      have held : ∀ other : Parameter, (names.lookup other).isSome ∨ other = param →
          ((names ++ [(param, ⟨name, param.ty⟩)] : Renaming).lookup other).isSome := by
        intro other known
        rw [List.lookup_append]
        rcases known with earlier | rfl
        · simp [earlier]
        · simp
      refine ⟨isFresh, fun other earlier => keeps other (held other (.inl earlier)), ?_⟩
      intro other member isReserved
      rcases List.mem_cons.1 member with rfl | later
      · exact keeps other (held other (.inr rfl))
      · exact covers other later isReserved
    next kept =>
      obtain ⟨isFresh, keeps, covers⟩ := ih fresh
      refine ⟨isFresh, keeps, ?_⟩
      intro other member isReserved
      rcases List.mem_cons.1 member with rfl | later
      · apply keeps
        rw [Bool.and_eq_true, not_and, Option.isNone_iff_eq_none] at kept
        exact Option.isSome_iff_ne_none.2 (kept isReserved)
      · exact covers other later isReserved

theorem extendRenaming_plain {taken : List String} {names : Renaming} {params : List Parameter}
    (plain : ∀ entry ∈ names, entry.2.isReserved = false) :
    ∀ entry ∈ extendRenaming taken names params, entry.2.isReserved = false := by
  induction params generalizing taken names with
  | nil => exact plain
  | cons param rest ih =>
    simp only [extendRenaming]
    split
    next =>
      refine ih fun entry member => ?_
      rcases List.mem_append.1 member with held | added
      · exact plain entry held
      · rw [List.mem_singleton.1 added]
        exact beq_false_of_ne (freshName_plain (plainName_plain param.name) _ _)
    next => exact ih plain

theorem mem_of_lookup {names : Renaming} {param new : Parameter}
    (found : names.lookup param = some new) : (param, new) ∈ names := by
  obtain ⟨before, after, rfl, -⟩ := List.lookup_eq_some_iff.1 found
  simp

end Renaming

open Outcome

namespace Expr

theorem renamingOf_fresh (expr : Expr) :
    (∃ taken, Renaming.Fresh
        ((expr.lambdaParameters.filter fun param => !param.isReserved).map Parameter.name) taken
        expr.renamingOf) ∧
      ∀ param ∈ expr.lambdaParameters, param.isReserved = true →
        (expr.renamingOf.lookup param).isSome := by
  have start : Renaming.Fresh
      ((expr.lambdaParameters.filter fun param => !param.isReserved).map Parameter.name)
      ((expr.lambdaParameters.filter fun param => !param.isReserved).map Parameter.name) [] :=
    ⟨List.Subset.refl _, by simp, by simp, by simp, by simp⟩
  obtain ⟨fresh, -, covers⟩ := Renaming.extendRenaming_fresh start expr.lambdaParameters
  exact ⟨fresh, covers⟩

theorem renamed_of_unreserved (expr : Expr) {param : Parameter} (plain : param.isReserved = false) :
    renamed expr.renamingOf param = param := by
  obtain ⟨⟨taken, fresh⟩, -⟩ := renamingOf_fresh expr
  cases found : expr.renamingOf.lookup param with
  | none => simp [renamed, found]
  | some new =>
    have isReserved := fresh.reserved _ (Renaming.mem_of_lookup found)
    rw [plain] at isReserved
    contradiction

theorem mem_renamingOf {expr : Expr} {param : Parameter} (isParam : param ∈ expr.lambdaParameters)
    (isReserved : param.isReserved = true) :
    (param, renamed expr.renamingOf param) ∈ expr.renamingOf := by
  obtain ⟨-, covers⟩ := renamingOf_fresh expr
  obtain ⟨new, found⟩ := Option.isSome_iff_exists.1 (covers param isParam isReserved)
  simpa [renamed, found] using Renaming.mem_of_lookup found

theorem renamed_name_ne {expr : Expr} {param other : Parameter}
    (isParam : param ∈ expr.lambdaParameters) (reserved : param.isReserved = true)
    (isOther : other ∈ expr.lambdaParameters) (unreserved : other.isReserved = false) :
    (renamed expr.renamingOf param).name ≠ other.name := by
  obtain ⟨⟨taken, fresh⟩, -⟩ := renamingOf_fresh expr
  have isPlain : other.name ∈
      (expr.lambdaParameters.filter fun param => !param.isReserved).map Parameter.name :=
    List.mem_map.2 ⟨other, List.mem_filter.2 ⟨isOther, by simp [unreserved]⟩, rfl⟩
  intro same
  rw [← same] at isPlain
  exact fresh.not_plain _ (mem_renamingOf isParam reserved) isPlain

theorem renamed_injective {expr : Expr} {param other : Parameter}
    (isParam : param ∈ expr.lambdaParameters) (reserved : param.isReserved = true)
    (isOther : other ∈ expr.lambdaParameters) (reserved' : other.isReserved = true)
    (same : (renamed expr.renamingOf param).name = (renamed expr.renamingOf other).name) :
    param = other := by
  obtain ⟨⟨taken, fresh⟩, -⟩ := renamingOf_fresh expr
  exact fresh.apart _ (mem_renamingOf isParam reserved) _ (mem_renamingOf isOther reserved') same

theorem renamingOf_separatesNames (expr : Expr) :
    expr.renamingOf.SeparatesNames expr.lambdaParameters := by
  intro param isParam other isOther same
  cases reserved : param.isReserved with
  | false =>
    rw [renamed_of_unreserved expr reserved] at same
    cases reserved' : other.isReserved with
    | false => rwa [renamed_of_unreserved expr reserved'] at same
    | true => exact absurd same.symm (renamed_name_ne isOther reserved' isParam reserved)
  | true =>
    cases reserved' : other.isReserved with
    | false =>
      rw [renamed_of_unreserved expr reserved'] at same
      exact absurd same (renamed_name_ne isParam reserved isOther reserved')
    | true =>
      have equal := renamed_injective isParam reserved isOther reserved' same
      exact congrArg Parameter.name equal

theorem isReserved_renamed {expr : Expr} {param : Parameter} (isParam : param ∈ expr.lambdaParameters) :
    (renamed expr.renamingOf param).isReserved = false := by
  cases reserved : param.isReserved with
  | false => rwa [renamed_of_unreserved expr reserved]
  | true =>
    have entries : ∀ entry ∈ expr.renamingOf, entry.2.isReserved = false := by
      unfold renamingOf
      exact Renaming.extendRenaming_plain (by simp)
    exact entries (param, renamed expr.renamingOf param) (mem_renamingOf isParam reserved)

end Expr

namespace Evaluation

variable {expr : Expr}

theorem eval_withoutReservedNames (rows : List Value) (inScope : expr.ScopedIn []) :
    Agree (eval rows [] expr) (eval rows [] expr.withoutReservedNames) := by
  refine eval_rename rows expr.renamingOf_separatesNames expr (List.nil_subset _)
    (List.Subset.refl _) inScope fun param visible => ?_
  simp [Parameter.VisibleIn] at visible

theorem sequence_withoutReservedNames (rows : List Value) (inScope : expr.ScopedIn []) :
    Agree (sequence rows expr) (sequence rows expr.withoutReservedNames) := by
  refine Related.bind (eval_withoutReservedNames rows inScope) ?_
  rintro value _ rfl
  unfold itemsOf
  split
  next => exact Agree.refl _
  next => exact .failed _ _

end Evaluation

end QueryProjection
