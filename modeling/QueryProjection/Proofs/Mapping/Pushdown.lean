import QueryProjection.Proofs.Filter.Paths
import QueryProjection.Proofs.Forest.Defaults
import QueryProjection.Proofs.Mapping.Records

set_option autoImplicit false

namespace QueryProjection

open Outcome Evaluation

def FailsAtEnd (reads : List (Outcome Value)) : Prop :=
  ∃ before cause, reads = before ++ [.error cause]

theorem FailsAtEnd.cons {reads : List (Outcome Value)} (fails : FailsAtEnd reads)
    (first : Outcome Value) : FailsAtEnd (first :: reads) := by
  obtain ⟨before, cause, rfl⟩ := fails
  exact ⟨first :: before, cause, rfl⟩

theorem FailsAtEnd.congr {reads others : List (Outcome Value)} (fails : FailsAtEnd reads)
    (alike : List.Forall₂ Agree reads others) : FailsAtEnd others := by
  obtain ⟨before, cause, rfl⟩ := fails
  induction before generalizing others with
  | nil =>
    obtain _ | ⟨last, rest⟩ := alike
    cases rest
    cases last with
    | failed _ cause' => exact ⟨[], cause', rfl⟩
  | cons first before ih =>
    obtain _ | ⟨-, rest⟩ := alike
    exact (ih rest).cons _

inductive Follows : List (Outcome Value) → List (Outcome Value) → Prop where
  | last (value : Value) : Follows [.ok value] [.ok value]
  | present {value value' : Value} {reads reads' : List (Outcome Value)}
      (some_ : value.isNull = false) (some_' : value'.isNull = false)
      (later : Follows reads reads') : Follows (.ok value :: reads) (.ok value' :: reads')
  | absent {reads reads' : List (Outcome Value)} (fails : FailsAtEnd reads)
      (fails' : FailsAtEnd reads') : Follows (.ok .null :: reads) (.ok .null :: reads')

theorem Follows.congr {reads reads' others : List (Outcome Value)} (follows : Follows reads reads')
    (alike : List.Forall₂ Agree reads' others) : Follows reads others := by
  induction follows generalizing others with
  | last value =>
    obtain _ | ⟨first, rest⟩ := alike
    cases rest
    cases first with
    | ok same => exact same ▸ .last value
  | present some_ some_' later ih =>
    obtain _ | ⟨first, rest⟩ := alike
    cases first with
    | ok same =>
      subst same
      exact .present some_ some_' (ih rest)
  | absent fails fails' =>
    obtain _ | ⟨first, rest⟩ := alike
    cases first with
    | ok same =>
      subst same
      exact .absent fails (fails'.congr rest)

theorem Follows.closed {first first' : Outcome Value} {rest rest' : List (Outcome Value)}
    (follows : Follows (first :: rest) (first' :: rest')) (guards : Bool) :
    Agree (closedOutcome guards first rest) (closedOutcome guards first' rest') := by
  induction rest generalizing first first' rest' with
  | nil =>
    cases follows with
    | last value => cases guards <;> exact .refl _
    | present _ _ later => cases later
    | absent fails _ =>
      obtain ⟨before, cause, empty⟩ := fails
      simp at empty
  | cons second rest ih =>
    cases follows with
    | @present value value' _ _ some_ some_' later =>
      cases rest' with
      | nil => cases later
      | cons second' rest' =>
        have agree := ih later
        cases guards with
        | false =>
          simp only [closedOutcome, Bool.false_eq_true, if_false, guarded,
            List.getLastD_cons] at agree ⊢
          exact agree
        | true =>
          simp only [closedOutcome, if_true, List.dropLast_cons_cons, List.getLastD_cons, guarded,
            ok_bind, some_, some_', Bool.false_eq_true, if_false] at agree ⊢
          exact agree
    | absent fails fails' =>
      cases guards with
      | false =>
        obtain ⟨before, cause, isEnd⟩ := fails
        obtain ⟨before', cause', rfl⟩ := fails'
        rw [isEnd]
        simp only [closedOutcome, Bool.false_eq_true, if_false, guarded, List.getLastD_concat]
        -- Unguarded, the last read fails on either side.
        exact .failed cause cause'
      | true =>
        cases rest' with
        | nil =>
          obtain ⟨before', cause', empty⟩ := fails'
          simp at empty
        | cons second' rest' => exact .refl _

namespace Mapping

variable {mapping : Mapping} {rows rows' : List Value} {scope scope' : Scope}

theorem membersAlong_missing {path : MemberPath} {target : Expr}
    (missing : Missing (eval rows scope target)) (some_ : path ≠ []) :
    FailsAtEnd ((Expr.membersAlong target path).map (eval rows scope)) := by
  induction path generalizing target with
  | nil => exact absurd rfl some_
  | cons step rest ih =>
    have failed := eval_member_missing missing step.memberName step.memberType
    by_cases more : rest = []
    · obtain ⟨cause, failed⟩ := failed
      exact ⟨[], cause, by simp [more, Expr.membersAlong, failed]⟩
    · exact (ih (.inr failed) more).cons _

theorem readAlong_missing {path : MemberPath} {source : Expr} {reads : List Expr} {ty : DataType}
    {member : MemberDecl} (missing : Missing (eval rows scope source))
    (ends : mapping.sourceMember? ty path = some member)
    (isRead : mapping.readAlong source path = .ok reads) :
    FailsAtEnd (reads.map (eval rows scope)) := by
  induction path generalizing source reads ty with
  | nil => simp [sourceMember?] at ends
  | cons step rest ih =>
    simp only [readAlong, bind_eq_ok, pure_eq_ok] at isRead
    obtain ⟨read, first, others, later, rfl⟩ := isRead
    cases rest with
    | nil =>
      simp only [readAlong, Except.ok.injEq] at later
      simp only [sourceMember?, Option.bind_eq_bind, Option.bind_eq_some_iff] at ends
      obtain ⟨names, path, ends⟩ := ends
      obtain ⟨rfl, -⟩ | ⟨cause, failed⟩ := eval_readMapped_missing path missing first
      · simp [Schema.memberAt?] at ends
      · exact ⟨[], cause, by simp [← later, failed]⟩
    | cons next rest =>
      simp only [sourceMember?, typeRead?, Option.bind_eq_bind, Option.bind_eq_some_iff] at ends
      obtain ⟨ty', ⟨names, path, -⟩, ends⟩ := ends
      -- A chain that is empty reads the missing value itself, any other one fails.
      have still : Missing (eval rows scope read) := by
        obtain ⟨-, rfl⟩ | failed := eval_readMapped_missing path missing first
        · exact missing
        · exact .inr failed
      exact (ih still ends later).cons _

theorem fit_primitive {construct : Construct} {memberType : DataType} {value : Expr} {depth : Nat}
    (kind : mapping.schema.targetKind memberType = .ok .primitive)
    (same : value.type.nonNull = memberType.nonNull) :
    mapping.fit construct memberType value depth = .ok value := by
  simp only [fit, kind, ok_bind, same, decide_true, Bool.or_true, if_true]
  rfl

theorem fit_complex {construct : Construct} {memberType : DataType} {element : String} {value : Expr}
    {depth : Nat} (kind : mapping.schema.targetKind memberType = .ok .complex)
    (single : memberType.isCollection = false) (leads : memberType.typeName? = some element) :
    mapping.fit construct memberType value depth = fitRecord construct element value depth := by
  simp only [fit, kind, ok_bind, leads, single, Bool.false_eq_true, if_false]

variable {parameters : ProjectionParameters}

theorem reads_follow {path : MemberPath} {modelType : String}
    (isDefault : DefaultPath mapping.schema modelType path)
    (single : ∀ step ∈ path.dropLast, step.memberType.isCollection = false)
    {fuel depth : Nat} {tree : IncludeTree} {source expr : Expr} {ty : DataType} {member : MemberDecl}
    (constructed : mapping.construct parameters fuel tree modelType source depth = .ok expr)
    (covers : tree.Covers path.names) (typed : source.type.nonNull = ty.nonNull)
    (ends : mapping.sourceMember? ty path = some member)
    (same : ∀ last ∈ path.getLast?, member.ty.nonNull = last.memberType.nonNull) :
    ∃ reads, mapping.readAlong source path = .ok reads ∧
      ∀ rows scope rows' scope' target record, eval rows scope expr = .ok record →
        eval rows' scope' target = .ok record →
        Follows ((Expr.membersAlong target path).map (eval rows' scope'))
          (reads.map (eval rows scope)) := by
  induction isDefault generalizing fuel tree source expr ty with
  | @last _ step listed primitive =>
    obtain ⟨rfl, isListed⟩ := listed
    obtain ⟨child, found, -⟩ := covers
    simp only [sourceMember?, Option.bind_eq_bind, Option.bind_eq_some_iff] at ends
    obtain ⟨names, path, ends⟩ := ends
    obtain ⟨fuel', read, fitted, reads, fits, holds⟩ :=
      construct_member constructed isListed found path
    -- The types agree, so nothing is converted.
    have typedRead : read.type.nonNull = step.memberType.nonNull := by
      obtain ⟨rfl, -⟩ | ⟨member', ends', sameRead⟩ := readMapped_type typed path reads
      · simp [Schema.memberAt?] at ends
      · cases ends.symm.trans ends'
        exact sameRead.trans (same step rfl)
    cases fits.symm.trans (fit_primitive primitive typedRead)
    have isRead : mapping.readMapped step.declaringType step.memberName source = .ok read := reads
    refine ⟨[read], readAlong_cons isRead rfl, ?_⟩
    intro rows scope rows' scope' target record isRecord isTarget
    obtain ⟨value, isValue, readsMember⟩ := holds rows scope record isRecord
    have isMember : eval rows' scope' (.member target step.memberName step.memberType) = .ok value := by
      simp only [eval, isTarget, ok_bind]
      exact readsMember _
    simp only [Expr.membersAlong, List.map_cons, List.map_nil, isMember, isValue]
    exact .last value
  | @cons _ element step rest listed complex leads later ih =>
    obtain ⟨rfl, isListed⟩ := listed
    obtain ⟨next, rest, rfl⟩ := List.exists_cons_of_ne_nil later.ne_nil
    obtain ⟨child, found, covers⟩ := covers
    rw [List.dropLast_cons_cons] at single
    obtain ⟨singleStep, singleRest⟩ := List.forall_mem_cons.1 single
    simp only [sourceMember?, Option.bind_eq_bind, Option.bind_eq_some_iff] at ends
    obtain ⟨ty', isType, ends⟩ := ends
    obtain ⟨names, path⟩ : ∃ names, mapping.mapPath? step.declaringType step.memberName = some names := by
      simp only [typeRead?, Option.bind_eq_bind, Option.bind_eq_some_iff] at isType
      obtain ⟨names, path, -⟩ := isType
      exact ⟨names, path⟩
    obtain ⟨fuel', read, fitted, reads, fits, holds⟩ :=
      construct_member constructed isListed found path
    have isRead : mapping.readMapped step.declaringType step.memberName source = .ok read := reads
    have fits := (fit_complex complex singleStep leads).symm.trans fits
    simp only [fitRecord, bind_eq_ok, pure_eq_ok] at fits
    obtain ⟨inner, innerConstructed, rfl⟩ := fits
    obtain ⟨others, readsRest, follows⟩ := ih singleRest innerConstructed covers
      (typeRead?_of_readMapped typed isType isRead) ends same
    refine ⟨read :: others, readAlong_cons isRead readsRest, ?_⟩
    intro rows scope rows' scope' target record isRecord isTarget
    obtain ⟨value, isValue, readsMember⟩ := holds rows scope record isRecord
    have isMember : eval rows' scope' (.member target step.memberName step.memberType) = .ok value := by
      simp only [eval, isTarget, ok_bind]
      exact readsMember _
    rw [eval_emptyWhenNull] at isValue
    obtain ⟨held, isHeld, isValue⟩ := bind_eq_ok.1 isValue
    rw [Expr.membersAlong, List.map_cons, List.map_cons, isMember, isHeld]
    cases null_ : held.isNull with
    | true =>
      have heldNull := Value.eq_null_of_isNull null_
      simp only [null_, if_true, Expr.null, eval, Except.ok.injEq] at isValue
      subst isValue heldNull
      exact .absent (membersAlong_missing (.inl isMember) (by simp))
        (readAlong_missing (.inl isHeld) ends readsRest)
    | false =>
      simp only [null_, Bool.false_eq_true, if_false] at isValue
      exact .present (construct_isNull innerConstructed isValue) null_
        (follows rows scope rows' scope' _ value isValue isMember)

end Mapping

end QueryProjection
