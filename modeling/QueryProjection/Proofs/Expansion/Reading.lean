import QueryProjection.Proofs.Expansion.Shape

set_option autoImplicit false

namespace QueryProjection

open Outcome Evaluation

abbrev ReadRecord := (modelType : String) → (sourceType : DataType) → Value → Outcome Value

namespace Refiner

def heldValue (refiner : Refiner) (rows : List Value) (readRecord : ReadRecord)
    (options : ExpandOptions) (memberType readType : DataType) (value : Value) : Outcome Value := do
  match ← refiner.mapping.schema.targetKind memberType with
  | .primitive =>
      if memberType.isCollection || readType.nonNull = memberType.nonNull then return value
      else return Evaluation.convert value memberType
  | .collection =>
      .error (.unsupported ("nested collection member of type " ++ memberType.toText))
  | _ =>
      match memberType.typeName? with
      | none => .error (.mapping (memberType.toText ++ " is not a structured type"))
      | some element =>
          if value.isNull then return Value.defaultOf memberType
          else if memberType.isCollection then do
            let items ← itemsFor .select value
            let kept ← refiner.elements rows element options items
            return .list (← kept.mapM (readRecord element readType.elementType))
          else readRecord element readType value

def memberValue (refiner : Refiner) (parameters : ProjectionParameters) (rows : List Value)
    (readRecord : ReadRecord) (options : ExpandOptions) (modelType : String) (sourceType : DataType)
    (element : Value) (member : MemberDecl) : Outcome Value :=
  match refiner.mapping.origin? modelType member.name with
  | some (.parameter name) => refiner.mapping.parameterValue parameters name member.ty
  | _ => do
      let source : Parameter := ⟨Mapping.itemNameAtDepth 0, sourceType⟩
      let read ← refiner.mapping.readMapped modelType member.name (.parameter source)
      let value ← (Lambda.mk source read).valueOn rows element
      refiner.heldValue rows readRecord options member.ty read.type value

/-- A record has every member of its type; those that are not included have their defaults. -/
def readRecord (refiner : Refiner) (parameters : ProjectionParameters) (rows : List Value) :
    (fuel : Nat) → IncludeTree → Refinements → ReadRecord
  | 0, _, _, modelType, _, _ => .error (.endlessProjection modelType)
  | fuel + 1, tree, asked, modelType, sourceType, element => do
      let members ← refiner.mapping.schema.members modelType
      let fields ← members.mapM fun member => do
        match ← refiner.mapping.includeFor tree member with
        | none => return (member.name, Value.defaultOf member.ty)
        | some child =>
            return (member.name, ← refiner.memberValue parameters rows
              (readRecord refiner parameters rows fuel child (asked.below member.name))
              (asked member.name []) modelType sourceType element member)
      return Value.ofFields modelType fields

end Refiner

namespace Evaluation

theorem mapM_of_mapItems {left right : Value → Outcome Value}
    (implies : ∀ item value, left item = .ok value → right item = .ok value) {items values : List Value}
    (mapped : mapItems left items = .ok values) : items.mapM right = .ok values :=
  mapM_eq_ok.2 ((mapItems_eq_ok.1 mapped).imp implies)

end Evaluation

theorem Selects.eval_eq_ok {sequence body selection : Expr} {item : Parameter} {rows : List Value}
    {scope : Scope} {value : Value} (selects : Selects sequence item body selection)
    (evaluated : eval rows scope selection = .ok value) :
    ∃ kept results, eval rows scope sequence = .ok (.list kept) ∧ value = .list results ∧
      mapItems (fun value => eval rows ((item.name, value) :: scope) body) kept = .ok results := by
  obtain ⟨results, rfl⟩ : ∃ results, value = .list results := by
    cases selects with
    | bare ty =>
      simp only [eval, SequenceMethod.isOrdering, Bool.false_eq_true, if_false, evalCall, bind_eq_ok,
        pure_eq_ok] at evaluated
      obtain ⟨_, -, _, -, results, -, rfl⟩ := evaluated
      exact ⟨results, rfl⟩
    | converted ty ty' converts =>
      simp only [List.mem_cons, List.not_mem_nil, or_false] at converts
      rcases converts with rfl | rfl | rfl <;>
      · rw [eval] at evaluated
        simp only [SequenceMethod.isOrdering, Bool.false_eq_true, if_false] at evaluated
        rw [evalCall] at evaluated
        simp only [bind_eq_ok, pure_eq_ok] at evaluated
        obtain ⟨_, -, results, -, rfl⟩ := evaluated
        exact ⟨results, rfl⟩
  have found := (selects.yields rows scope).eq_ok_iff results |>.1 (itemsIn_eq_ok.2 evaluated)
  obtain ⟨kept, isKept, mapped⟩ := bind_eq_ok.1 found
  exact ⟨kept, results, itemsIn_eq_ok.1 isKept, rfl, mapped⟩

namespace Refiner

variable {refiner : Refiner} {parameters : ProjectionParameters} {rows : List Value}
  {options : ExpandOptions} {memberType : DataType} {read expr : Expr} {depth : Nat} {scope : Scope}
  {value : Value}

theorem heldValue_of_holds {readRecord : ReadRecord} {readType : DataType} {element : String}
    (holds : refiner.mapping.HoldsRecords memberType element) (value : Value) :
    refiner.heldValue rows readRecord options memberType readType value =
      if value.isNull then .ok (Value.defaultOf memberType)
      else if memberType.isCollection then do
        let items ← itemsFor .select value
        let kept ← refiner.elements rows element options items
        return .list (← kept.mapM (readRecord element readType.elementType))
      else readRecord element readType value := by
  unfold heldValue
  rcases holds.kind with kind | kind <;> simp only [kind, ok_bind, holds.named] <;> rfl

theorem Fitted.heldValue {shaped : String → Expr → Nat → Expr → Prop} {readRecord : ReadRecord}
    (fitted : Fitted refiner shaped options memberType read depth expr)
    (reads : ∀ element source depth expr scope held value, shaped element source depth expr →
      eval rows scope source = .ok held → eval rows scope expr = .ok value →
        readRecord element source.type held = .ok value)
    (evaluated : eval rows scope expr = .ok value) :
    ∃ held, eval rows scope read = .ok held ∧
      refiner.heldValue rows readRecord options memberType read.type held = .ok value := by
  cases fitted with
  | same kind fits =>
    refine ⟨value, evaluated, ?_⟩
    simp only [Refiner.heldValue, kind, ok_bind]
    rw [if_pos (by simpa using fits)]
    rfl
  | converted kind differs =>
    simp only [eval, bind_eq_ok, pure_eq_ok] at evaluated
    obtain ⟨held, isHeld, rfl⟩ := evaluated
    refine ⟨held, isHeld, ?_⟩
    simp only [Refiner.heldValue, kind, ok_bind]
    rw [if_neg (by simpa using differs)]
    rfl
  | items ty emptyType holds many refined isShaped selects typed =>
    rw [Mapping.eval_emptyWhenNull] at evaluated
    obtain ⟨held, isHeld, evaluated⟩ := bind_eq_ok.1 evaluated
    refine ⟨held, isHeld, ?_⟩
    rw [heldValue_of_holds holds]
    by_cases isNull : held.isNull = true
    · rw [if_pos isNull] at evaluated ⊢
      simpa only [eval] using evaluated
    · rw [if_neg isNull] at evaluated ⊢
      rw [if_pos many]
      obtain ⟨kept, results, isKept, rfl, mapped⟩ := selects.eval_eq_ok evaluated
      -- The kept elements are those that the options leave of the items that are held.
      obtain ⟨items, isItems, isElements⟩ := bind_eq_ok.1
        ((refined.yields rows scope).eq_ok_iff kept |>.1 (itemsIn_eq_ok.2 isKept))
      have isList : held = .list items :=
        Except.ok.inj (isHeld.symm.trans (itemsIn_eq_ok.1 isItems))
      have isRead := mapM_of_mapItems (fun item value => reads _ _ _ _ _ item value isShaped (by
        simp only [eval, List.lookup_cons_self])) mapped
      subst isList
      simp only [itemsFor, ok_bind, isElements]
      rw [bind_eq_ok]
      exact ⟨results, isRead, rfl⟩
  | record holds single isShaped =>
    rw [Mapping.eval_emptyWhenNull] at evaluated
    obtain ⟨held, isHeld, evaluated⟩ := bind_eq_ok.1 evaluated
    refine ⟨held, isHeld, ?_⟩
    rw [heldValue_of_holds holds]
    by_cases isNull : held.isNull = true
    · rw [if_pos isNull] at evaluated ⊢
      simpa only [Expr.null, eval, Value.defaultOf, single, Bool.false_eq_true, if_false] using evaluated
    · rw [if_neg isNull] at evaluated ⊢
      simp only [single, Bool.false_eq_true, if_false]
      exact reads _ _ _ _ _ held value isShaped isHeld evaluated

theorem Bound.memberValue {shaped : IncludeTree → Refinements → String → Expr → Nat → Expr → Prop}
    {readRecord : IncludeTree → Refinements → ReadRecord} {tree : IncludeTree} {asked : Refinements}
    {modelType : String} {source : Expr} {member : MemberDecl} {binding : String × Expr}
    {element : Value}
    (bound : Bound refiner parameters shaped tree asked modelType source depth member binding)
    (reads : ∀ tree asked modelType source depth expr scope held value,
      shaped tree asked modelType source depth expr → eval rows scope source = .ok held →
        eval rows scope expr = .ok value → readRecord tree asked modelType source.type held = .ok value)
    (isSource : eval rows scope source = .ok element)
    (evaluated : eval rows scope binding.2 = .ok value) :
    (do
      match ← refiner.mapping.includeFor tree member with
      | none => return (member.name, Value.defaultOf member.ty)
      | some child =>
          return (member.name, ← refiner.memberValue parameters rows
            (readRecord child (asked.below member.name)) (asked member.name []) modelType source.type
            element member)) = .ok (binding.1, value) := by
  cases bound with
  | omitted included =>
    simp only [eval, Except.ok.injEq] at evaluated
    simp only [included, ok_bind, evaluated]
    rfl
  | parameter included origin supplied =>
    simp only [eval, Except.ok.injEq] at evaluated
    simp only [included, ok_bind, Refiner.memberValue, origin, supplied, evaluated]
    rfl
  | @read child names read expr included path isRead fitted =>
    obtain ⟨held, isHeld, holds⟩ := fitted.heldValue (reads child (asked.below member.name)) evaluated
    -- A parameter that holds the element is read alike.
    have alike : Mapping.AlikeIn rows rows scope [(Mapping.itemNameAtDepth 0, element)] source
        (.parameter ⟨Mapping.itemNameAtDepth 0, source.type⟩) := by
      refine ⟨rfl, ?_⟩
      simp only [isSource, eval, List.lookup_cons_self]
      exact .ok rfl
    generalize isRead' : refiner.mapping.readMapped modelType member.name
      (.parameter ⟨Mapping.itemNameAtDepth 0, source.type⟩) = outcome
    have related : Related (Mapping.AlikeIn rows rows scope [(Mapping.itemNameAtDepth 0, element)])
        (.ok read) outcome := by
      rw [← isRead, ← isRead']
      exact Mapping.readMapped_alike alike modelType member.name
    cases related with
    | ok readAlike =>
      have isHeld' := (readAlike.agree.eq_ok_iff held).1 isHeld
      have isValue : refiner.memberValue parameters rows (readRecord child (asked.below member.name))
          (asked member.name []) modelType source.type element member = .ok value := by
        unfold Refiner.memberValue
        split
        next name origin => simp [Mapping.mapPath?, origin] at path
        next =>
          simp only [isRead', ok_bind, Lambda.valueOn, isHeld']
          rw [← readAlike.type]
          exact holds
      simp only [included, ok_bind, isValue]
      rfl

theorem evalBindings_forall₂ {relation : MemberDecl → String × Expr → Prop}
    {compute : MemberDecl → Outcome (String × Value)} {members : List MemberDecl}
    {bindings : List (String × Expr)} {fields : List (String × Value)}
    (related : List.Forall₂ relation members bindings)
    (computes : ∀ member binding value, relation member binding →
      eval rows scope binding.2 = .ok value → compute member = .ok (binding.1, value))
    (evaluated : evalBindings rows scope bindings = .ok fields) :
    members.mapM compute = .ok fields := by
  induction related generalizing fields with
  | nil =>
    simp only [evalBindings, Except.ok.injEq] at evaluated
    exact evaluated ▸ rfl
  | @cons member binding members bindings first _ ih =>
    simp only [evalBindings, bind_eq_ok, pure_eq_ok] at evaluated
    obtain ⟨value, isValue, others, later, rfl⟩ := evaluated
    simp only [List.mapM_cons, computes member binding value first isValue, ih later, ok_bind]
    rfl

theorem Shaped.readRecord {fuel : Nat} {tree : IncludeTree} {asked : Refinements} {modelType : String}
    {source : Expr} {element : Value}
    (shaped : Shaped refiner parameters fuel tree asked modelType source depth expr)
    (isSource : eval rows scope source = .ok element)
    (evaluated : eval rows scope expr = .ok value) :
    refiner.readRecord parameters rows fuel tree asked modelType source.type element = .ok value := by
  induction fuel generalizing tree asked modelType source depth expr scope element value with
  | zero => exact shaped.elim
  | succ fuel ih =>
    obtain ⟨members, bindings, listed, rfl, bound⟩ := shaped
    simp only [eval, bind_eq_ok, pure_eq_ok] at evaluated
    obtain ⟨fields, areFields, rfl⟩ := evaluated
    simp only [Refiner.readRecord, listed, ok_bind]
    rw [evalBindings_forall₂ bound _ areFields]
    · rfl
    · intro member binding value bound isValue
      exact bound.memberValue (fun _ _ _ _ _ _ _ _ _ shaped isHeld isValue => ih shaped isHeld isValue)
        isSource isValue

end Refiner

end QueryProjection
