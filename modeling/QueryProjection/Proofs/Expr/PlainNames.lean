import QueryProjection.Proofs.Evaluation.ReservedNames
import QueryProjection.Proofs.Expr.Subterms

set_option autoImplicit false

namespace QueryProjection

open Outcome Evaluation

def lengthened (candidate : String) (rounds : Nat) : String :=
  candidate ++ String.ofList (List.replicate rounds '0')

@[simp] theorem lengthened_zero (candidate : String) : lengthened candidate 0 = candidate := by
  simp [lengthened]

theorem lengthened_succ (candidate : String) (rounds : Nat) :
    lengthened candidate (rounds + 1) = lengthened (candidate ++ "0") rounds := by
  apply String.toList_inj.1
  simp [lengthened, List.replicate_succ]

theorem freshName_eq_lengthened (taken : List String) (fuel : Nat) (candidate : String) :
    ∃ rounds ≤ fuel, freshName taken fuel candidate = lengthened candidate rounds ∧
      ∀ earlier < rounds, lengthened candidate earlier ∈ taken := by
  induction fuel generalizing candidate with
  | zero => exact ⟨0, Nat.le_refl 0, by simp [freshName], by simp⟩
  | succ fuel ih =>
    simp only [freshName]
    split
    next isTaken =>
      obtain ⟨rounds, within, reached, before⟩ := ih (candidate ++ "0")
      refine ⟨rounds + 1, Nat.succ_le_succ within, by rw [reached, lengthened_succ], ?_⟩
      intro earlier sooner
      cases earlier with
      | zero => simpa using isTaken
      | succ earlier =>
        rw [lengthened_succ]
        exact before earlier (Nat.lt_of_succ_lt_succ sooner)
    next => exact ⟨0, Nat.zero_le _, by simp, by simp⟩

theorem freshName_first (taken : List String) (candidate : String) :
    ∃ rounds ≤ taken.length, freshName taken taken.length candidate = lengthened candidate rounds ∧
      lengthened candidate rounds ∉ taken ∧
      ∀ earlier < rounds, lengthened candidate earlier ∈ taken := by
  obtain ⟨rounds, within, reached, before⟩ := freshName_eq_lengthened taken taken.length candidate
  refine ⟨rounds, within, reached, ?_, before⟩
  rw [← reached]
  exact freshName_new taken candidate

theorem extendRenaming_of_unreserved {taken : List String} {names : Renaming}
    {params : List Parameter} (unreserved : ∀ param ∈ params, param.isReserved = false) :
    extendRenaming taken names params = names := by
  induction params with
  | nil => rfl
  | cons param rest ih =>
    obtain ⟨first, others⟩ := List.forall_mem_cons.1 unreserved
    simp [extendRenaming, first, ih others]

theorem extendRenaming_ty {taken : List String} {names : Renaming} {params : List Parameter}
    (typed : ∀ entry ∈ names, entry.2.ty = entry.1.ty) :
    ∀ entry ∈ extendRenaming taken names params, entry.2.ty = entry.1.ty := by
  induction params generalizing taken names with
  | nil => exact typed
  | cons param rest ih =>
    simp only [extendRenaming]
    split
    next =>
      refine ih fun entry member => ?_
      rcases List.mem_append.1 member with held | added
      · exact typed entry held
      · rw [List.mem_singleton.1 added]
    next => exact ih typed

namespace Expr

def parameterMet? : Expr → Option Parameter
  | .parameter param => some param
  | .lambda param _ => some param
  | _ => none

def parametersMet (expr : Expr) : List Parameter :=
  expr.subterms.filterMap parameterMet?

theorem mem_lambdaParameters {expr : Expr} {param : Parameter} :
    param ∈ expr.lambdaParameters ↔ ∃ body, .lambda param body ∈ expr.subterms := by
  rw [lambdaParameters, List.mem_filterMap]
  constructor
  · rintro ⟨node, member, declares⟩
    cases node with
    | lambda declared body => exact ⟨body, by cases declares; exact member⟩
    | _ => cases declares
  · rintro ⟨body, member⟩
    exact ⟨_, member, rfl⟩

theorem mem_parametersMet {expr : Expr} {param : Parameter} :
    param ∈ expr.parametersMet ↔ .parameter param ∈ expr.subterms ∨ param ∈ expr.lambdaParameters := by
  rw [parametersMet, List.mem_filterMap, mem_lambdaParameters]
  constructor
  · rintro ⟨node, member, met⟩
    cases node with
    | parameter used => exact .inl (by cases met; exact member)
    | lambda declared body => exact .inr ⟨body, by cases met; exact member⟩
    | _ => cases met
  · rintro (member | ⟨body, member⟩)
    · exact ⟨_, member, rfl⟩
    · exact ⟨_, member, rfl⟩

theorem parametersMet_rename (names : Renaming) (expr : Expr) :
    (expr.rename names).parametersMet = expr.parametersMet.map (renamed names) := by
  have nodewise : parameterMet? ∘ rename names = fun node => (parameterMet? node).map (renamed names) := by
    funext node
    cases node <;> rfl
  rw [parametersMet, subterms_rename, List.filterMap_map, nodewise, parametersMet, List.map_filterMap]

theorem lambdaParameters_rename (names : Renaming) (expr : Expr) :
    (expr.rename names).lambdaParameters = expr.lambdaParameters.map (renamed names) := by
  have nodewise :
      lambdaParameter? ∘ rename names = fun node => (lambdaParameter? node).map (renamed names) := by
    funext node
    cases node <;> rfl
  rw [lambdaParameters, subterms_rename, List.filterMap_map, nodewise, lambdaParameters,
    List.map_filterMap]

mutual

theorem declared_of_mem_subterms (expr : Expr) {declared : Declared} (inScope : expr.ScopedIn declared)
    {param : Parameter} (used : .parameter param ∈ expr.subterms) :
    param ∈ declared ∨ param ∈ expr.lambdaParameters := by
  match expr with
  | .source _ | .constant _ _ => simp [subterms] at used
  | .parameter other =>
    simp only [subterms, List.mem_singleton, parameter.injEq] at used
    exact .inl (used ▸ Parameter.mem_of_visibleIn inScope)
  | .member target _ _ =>
    simp only [subterms, List.mem_cons, reduceCtorEq, false_or] at used
    exact declared_of_mem_subterms target inScope used
  | .construct _ bindings =>
    simp only [subterms, List.mem_cons, reduceCtorEq, false_or] at used
    exact declared_of_mem_bindingSubterms bindings inScope used
  | .lambda own body =>
    simp only [subterms, List.mem_cons, reduceCtorEq, false_or] at used
    -- What the lambda declares counts as declared inside of it.
    have inBody := declared_of_mem_subterms body inScope used
    rw [List.mem_cons, or_assoc, or_left_comm] at inBody
    simpa using inBody
  | .call _ arguments _ | .function _ arguments =>
    simp only [subterms, List.mem_cons, reduceCtorEq, false_or] at used
    exact declared_of_mem_allSubterms arguments inScope used
  | .binary _ left right =>
    simp only [subterms, List.mem_cons, reduceCtorEq, false_or, List.mem_append] at used
    rw [lambdaParameters_binary, List.mem_append]
    rcases used with first | second
    · exact (declared_of_mem_subterms left inScope.1 first).imp_right .inl
    · exact (declared_of_mem_subterms right inScope.2 second).imp_right .inr
  | .negation operand | .convert operand _ =>
    simp only [subterms, List.mem_cons, reduceCtorEq, false_or] at used
    exact declared_of_mem_subterms operand inScope used
  | .conditional test whenTrue whenFalse _ =>
    simp only [subterms, List.mem_cons, reduceCtorEq, false_or, List.mem_append] at used
    rw [lambdaParameters_conditional, List.mem_append, List.mem_append]
    rcases used with (first | second) | third
    · exact (declared_of_mem_subterms test inScope.1 first).imp_right fun held => .inl (.inl held)
    · exact (declared_of_mem_subterms whenTrue inScope.2.1 second).imp_right
        fun held => .inl (.inr held)
    · exact (declared_of_mem_subterms whenFalse inScope.2.2 third).imp_right .inr

theorem declared_of_mem_allSubterms (exprs : List Expr) {declared : Declared}
    (inScope : AllScopedIn declared exprs) {param : Parameter}
    (used : .parameter param ∈ allSubterms exprs) :
    param ∈ declared ∨ param ∈ allLambdaParameters exprs := by
  match exprs with
  | [] => simp [allSubterms] at used
  | expr :: rest =>
    rw [allSubterms, List.mem_append] at used
    rw [allLambdaParameters_cons, List.mem_append]
    rcases used with first | later
    · exact (declared_of_mem_subterms expr inScope.1 first).imp_right .inl
    · exact (declared_of_mem_allSubterms rest inScope.2 later).imp_right .inr

theorem declared_of_mem_bindingSubterms (bindings : List (String × Expr)) {declared : Declared}
    (inScope : BindingsScopedIn declared bindings) {param : Parameter}
    (used : .parameter param ∈ bindingSubterms bindings) :
    param ∈ declared ∨ param ∈ bindingLambdaParameters bindings := by
  match bindings with
  | [] => simp [bindingSubterms] at used
  | (_, expr) :: rest =>
    rw [bindingSubterms, List.mem_append] at used
    rw [bindingLambdaParameters_cons, List.mem_append]
    rcases used with first | later
    · exact (declared_of_mem_subterms expr inScope.1 first).imp_right .inl
    · exact (declared_of_mem_bindingSubterms rest inScope.2 later).imp_right .inr

end

theorem mem_lambdaParameters_of_met {expr : Expr} (closed : expr.ScopedIn []) {param : Parameter}
    (met : param ∈ expr.parametersMet) : param ∈ expr.lambdaParameters := by
  rcases mem_parametersMet.1 met with used | declares
  · simpa using declared_of_mem_subterms expr closed used
  · exact declares

theorem renamed_ty (expr : Expr) (param : Parameter) :
    (renamed expr.renamingOf param).ty = param.ty := by
  cases found : expr.renamingOf.lookup param with
  | none => simp [renamed, found]
  | some new =>
    have typed : ∀ entry ∈ expr.renamingOf, entry.2.ty = entry.1.ty := extendRenaming_ty (by simp)
    simpa [renamed, found] using typed _ (Renaming.mem_of_lookup found)

/-- The second expression has new parameters in place of the reserved ones of the first, and they are
told apart wherever those of the first are. -/
structure PlainlyNamed (expr plain : Expr) (new : Parameter → Parameter) : Prop where
  met : plain.parametersMet = expr.parametersMet.map new
  unreserved : ∀ param ∈ plain.parametersMet, param.isReserved = false
  kept : ∀ param : Parameter, param.isReserved = false → new param = param
  typed : ∀ param : Parameter, (new param).ty = param.ty
  apart : ∀ param ∈ expr.lambdaParameters, param.isReserved = true →
    ∀ other ∈ expr.lambdaParameters, other ≠ param → (new other).name ≠ (new param).name
  unused : ∀ param ∈ expr.lambdaParameters, param.isReserved = true →
    ∀ other ∈ expr.lambdaParameters, other.name ≠ (new param).name

variable {expr : Expr}

theorem withoutReservedNames_named (closed : expr.ScopedIn []) :
    PlainlyNamed expr expr.withoutReservedNames (renamed expr.renamingOf) where
  met := parametersMet_rename expr.renamingOf expr
  unreserved := by
    intro param met
    rw [withoutReservedNames, parametersMet_rename] at met
    obtain ⟨old, isOld, rfl⟩ := List.mem_map.1 met
    exact isReserved_renamed (mem_lambdaParameters_of_met closed isOld)
  kept _ plain := renamed_of_unreserved expr plain
  typed := renamed_ty expr
  apart := by
    intro param isParam reserved other isOther differs same
    cases reserved' : other.isReserved with
    | false =>
      rw [renamed_of_unreserved expr reserved'] at same
      exact renamed_name_ne isParam reserved isOther reserved' same.symm
    | true => exact differs (renamed_injective isOther reserved' isParam reserved same)
  unused := by
    intro param isParam reserved other isOther same
    cases reserved' : other.isReserved with
    | false => exact renamed_name_ne isParam reserved isOther reserved' same.symm
    | true =>
      -- A reserved name is not that of a new parameter, which is plain.
      have plain := isReserved_renamed isParam
      rw [Parameter.isReserved, ← same] at plain
      exact Bool.false_ne_true (plain.symm.trans reserved')

theorem withoutReservedNames_idempotent (expr : Expr) :
    expr.withoutReservedNames.withoutReservedNames = expr.withoutReservedNames := by
  have unreserved : ∀ param ∈ expr.withoutReservedNames.lambdaParameters,
      param.isReserved = false := by
    intro param declares
    rw [withoutReservedNames, lambdaParameters_rename] at declares
    obtain ⟨old, isOld, rfl⟩ := List.mem_map.1 declares
    exact isReserved_renamed isOld
  have nothing : expr.withoutReservedNames.renamingOf = [] :=
    extendRenaming_of_unreserved unreserved
  rw [withoutReservedNames, nothing, rename_nil]

/-- The reserved names of a closed expression are replaced by ones of their own, each found after
finitely many rounds; this is done once and for all, and changes no value. -/
theorem withoutReservedNames_means_same (closed : expr.ScopedIn []) :
    PlainlyNamed expr expr.withoutReservedNames (renamed expr.renamingOf) ∧
      expr.withoutReservedNames.withoutReservedNames = expr.withoutReservedNames ∧
      (∀ rows, Agree (eval rows [] expr) (eval rows [] expr.withoutReservedNames)) ∧
      ∀ taken candidate, ∃ rounds ≤ taken.length,
        freshName taken taken.length candidate = lengthened candidate rounds ∧
          lengthened candidate rounds ∉ taken ∧
          ∀ earlier < rounds, lengthened candidate earlier ∈ taken := by
  refine ⟨withoutReservedNames_named closed, withoutReservedNames_idempotent expr, ?_,
    freshName_first⟩
  intro rows
  exact eval_withoutReservedNames rows closed

def scoresAboveBar : Expr :=
  let club : Parameter := ⟨"it", .named "Club"⟩
  let player : Parameter := ⟨"$it", .named "Player"⟩
  let score : Parameter := ⟨"$it", .scalar .int32⟩
  let scores : DataType := .collection .enumerable (.scalar .int32)
  .call .select [.source (.collection .queryable (.named "Club")),
    .lambda club (.call .select [
      .member (.parameter club) "Players" (.collection .list (.named "Player")),
      .lambda player (.call .filter [.member (.parameter player) "Scores" scores,
        .lambda score (.binary .gt (.parameter score)
          (.member (.parameter club) "Bar" (.scalar .int32)))] scores)]
      (.collection .enumerable scores))]
    (.collection .queryable (.collection .enumerable scores))

theorem scoresAboveBar_means_same :
    scoresAboveBar.ScopedIn [] ∧
      scoresAboveBar.withoutReservedNames.parametersMet.map Parameter.name =
        ["it", "it", "it0", "it0", "it00", "it00", "it"] ∧
      PlainlyNamed scoresAboveBar scoresAboveBar.withoutReservedNames
        (renamed scoresAboveBar.renamingOf) ∧
      scoresAboveBar.withoutReservedNames.withoutReservedNames =
        scoresAboveBar.withoutReservedNames ∧
      ∀ rows, Agree (eval rows [] scoresAboveBar) (eval rows [] scoresAboveBar.withoutReservedNames) := by
  have closed : scoresAboveBar.ScopedIn [] := by
    simp [scoresAboveBar, ScopedIn, AllScopedIn, Parameter.VisibleIn]
  obtain ⟨named, idempotent, same, -⟩ := withoutReservedNames_means_same closed
  exact ⟨closed, by rfl, named, idempotent, same⟩

end Expr

end QueryProjection
