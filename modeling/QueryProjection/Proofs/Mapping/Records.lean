import QueryProjection.Evaluation.Interpreter
import QueryProjection.Mapping.Projection
import QueryProjection.Proofs.Json.Members
import QueryProjection.Proofs.Mapping.Reading
import QueryProjection.Proofs.Schema.Members

set_option autoImplicit false

namespace QueryProjection

open Outcome Evaluation

namespace Value

variable {name : String} {value : Value} {fields set : List (String × Value)}

theorem setField_of_new (new : name ∉ set.map Prod.fst) :
    setField name value set = set ++ [(name, value)] := by
  induction set with
  | nil => rfl
  | cons held rest ih =>
    simp only [List.map_cons, List.mem_cons, not_or] at new
    have different : held.1 ≠ name := fun same => new.1 same.symm
    simp [setField, different, ih new.2]

theorem foldl_setField (distinct : ((set ++ fields).map Prod.fst).Nodup) :
    fields.foldl (fun set (name, value) => setField name value set) set = set ++ fields := by
  induction fields generalizing set with
  | nil => simp
  | cons field rest ih =>
    obtain ⟨name, value⟩ := field
    have new : name ∉ set.map Prod.fst := by
      rw [List.map_append, List.nodup_append] at distinct
      intro held
      exact distinct.2.2 name held name (by simp) rfl
    simp only [List.foldl_cons, setField_of_new new]
    rw [ih (by simpa using distinct)]
    simp

theorem ofFields_of_nodup (typeName : String) (distinct : (fields.map Prod.fst).Nodup) :
    ofFields typeName fields = .record typeName fields := by
  rw [ofFields, foldl_setField (by simpa using distinct)]
  rfl

theorem findField_of_mem (distinct : (fields.map Prod.fst).Nodup) (member : (name, value) ∈ fields) :
    findField fields name = some value := by
  have found := Json.lookup_of_mem distinct member
  simp [findField, found]

end Value

namespace Evaluation

variable {rows : List Value} {scope : Scope}

theorem evalBindings_eq_ok {bindings : List (String × Expr)} {fields : List (String × Value)}
    (evaluated : evalBindings rows scope bindings = .ok fields) :
    fields.map Prod.fst = bindings.map Prod.fst ∧
      ∀ binding ∈ bindings, ∃ value, eval rows scope binding.2 = .ok value ∧
        (binding.1, value) ∈ fields := by
  induction bindings generalizing fields with
  | nil =>
    simp only [evalBindings, Except.ok.injEq] at evaluated
    simp [← evaluated]
  | cons binding rest ih =>
    simp only [evalBindings, bind_eq_ok, pure_eq_ok] at evaluated
    obtain ⟨value, isValue, others, later, rfl⟩ := evaluated
    obtain ⟨names, values⟩ := ih later
    refine ⟨by simp [names], List.forall_mem_cons.2 ⟨⟨value, isValue, by simp⟩, ?_⟩⟩
    intro other isOther
    obtain ⟨value', isValue', held⟩ := values other isOther
    exact ⟨value', isValue', List.mem_cons_of_mem _ held⟩

end Evaluation

namespace Mapping

variable {mapping : Mapping} {parameters : ProjectionParameters} {fuel depth : Nat}
  {tree child : IncludeTree} {modelType : String} {source expr : Expr} {member : MemberDecl}

def Binds (mapping : Mapping) (parameters : ProjectionParameters) (fuel : Nat) (tree : IncludeTree)
    (modelType : String) (source : Expr) (depth : Nat) (member : MemberDecl)
    (binding : String × Expr) : Prop :=
  binding.1 = member.name ∧
    ((mapping.includeFor tree member = .ok none ∧
        binding.2 = .constant (Value.defaultOf member.ty) member.ty) ∨
      ∃ child, mapping.includeFor tree member = .ok (some child) ∧
        mapping.bindingValue parameters (mapping.construct parameters fuel child) modelType member
          source depth = .ok binding.2)

theorem construct_eq_ok
    (constructed : mapping.construct parameters fuel tree modelType source depth = .ok expr) :
    ∃ fuel' bindings members, fuel = fuel' + 1 ∧ expr = .construct (.named modelType) bindings ∧
      mapping.schema.members modelType = .ok members ∧
      List.Forall₂ (mapping.Binds parameters fuel' tree modelType source depth) members bindings := by
  cases fuel with
  | zero => simp [construct] at constructed
  | succ fuel =>
    simp only [construct, bind_eq_ok, pure_eq_ok] at constructed
    obtain ⟨members, listed, bindings, computed, rfl⟩ := constructed
    refine ⟨fuel, bindings, members, rfl, rfl, listed, ?_⟩
    refine (mapM_eq_ok.1 computed).imp fun member binding made => ?_
    obtain ⟨child?, included, made⟩ := bind_eq_ok.1 made
    cases child? with
    | none =>
      rw [pure_eq_ok] at made
      exact made ▸ ⟨rfl, .inl ⟨included, rfl⟩⟩
    | some child =>
      simp only [bind_eq_ok, pure_eq_ok] at made
      obtain ⟨value, bound, rfl⟩ := made
      exact ⟨rfl, .inr ⟨child, included, bound⟩⟩

theorem Binds.names {members : List MemberDecl} {bindings : List (String × Expr)}
    (binds : List.Forall₂ (mapping.Binds parameters fuel tree modelType source depth) members bindings) :
    bindings.map Prod.fst = members.map MemberDecl.name :=
  map_eq_of_forall₂ (binds.flip.imp fun _ _ bound => bound.1)

theorem includeFor_of_child (found : tree.child? member.name = some child) :
    mapping.includeFor tree member = .ok (some child) := by
  simp [includeFor, found]

theorem bindingValue_of_mapPath {construct : Construct} {names : List String}
    (path : mapping.mapPath? modelType member.name = some names) :
    mapping.bindingValue parameters construct modelType member source depth = (do
      mapping.fit construct member.ty (← mapping.readMapped modelType member.name source) depth) := by
  unfold mapPath? at path
  unfold bindingValue readMapped
  cases origin : mapping.origin? modelType member.name with
  | none => rfl
  | some origin_ =>
    cases origin_ with
    | path names => rfl
    | parameter name => simp [origin] at path

theorem bindingValue_of_parameter {construct : Construct}
    (path : mapping.mapPath? modelType member.name = none)
    (bound : mapping.bindingValue parameters construct modelType member source depth = .ok expr) :
    ∃ name value, mapping.parameterValue parameters name member.ty = .ok value ∧
      expr = .constant value member.ty := by
  unfold mapPath? at path
  unfold bindingValue at bound
  split at path
  next => simp at path
  next name origin =>
    simp only [origin, bind_eq_ok, pure_eq_ok] at bound
    obtain ⟨value, isValue, rfl⟩ := bound
    exact ⟨name, value, isValue, rfl⟩
  next => simp at path

structure HoldsRecords (mapping : Mapping) (memberType : DataType) (element : String) :
    Prop where
  kind : mapping.schema.targetKind memberType = .ok .complex ∨
    mapping.schema.targetKind memberType = .ok .entity
  named : memberType.typeName? = some element

inductive FitsBy (mapping : Mapping) (construct : Construct) (memberType : DataType) (read : Expr)
    (depth : Nat) : Expr → Prop where
  | same (kind : mapping.schema.targetKind memberType = .ok .primitive)
      (fits : memberType.isCollection = true ∨ read.type.nonNull = memberType.nonNull) :
      FitsBy mapping construct memberType read depth read
  | converted (kind : mapping.schema.targetKind memberType = .ok .primitive)
      (differs : ¬ (memberType.isCollection = true ∨ read.type.nonNull = memberType.nonNull)) :
      FitsBy mapping construct memberType read depth (.convert read memberType)
  | items {element : String} {body selection : Expr} (holds : mapping.HoldsRecords memberType element)
      (many : memberType.isCollection = true)
      (constructed : construct element
        (.parameter ⟨itemNameAtDepth (depth + 1), read.type.elementType⟩) (depth + 1) = .ok body)
      (selects : selection = (read.selected
        ⟨⟨itemNameAtDepth (depth + 1), read.type.elementType⟩, body⟩).coercedTo
          memberType.collectionKind?) :
      FitsBy mapping construct memberType read depth
        (emptyWhenNull read (.constant (Value.defaultOf memberType) selection.type) selection
          selection.type)
  | record {element : String} {record : Expr} (holds : mapping.HoldsRecords memberType element)
      (single : memberType.isCollection = false) (constructed : construct element read depth = .ok record) :
      FitsBy mapping construct memberType read depth
        (emptyWhenNull read (.null (.named element)) record (.named element))

theorem fitsBy_of_fit {construct : Construct} {memberType : DataType} {read : Expr}
    (fits : mapping.fit construct memberType read depth = .ok expr) :
    mapping.FitsBy construct memberType read depth expr := by
  unfold fit at fits
  obtain ⟨kind, isKind, fits⟩ := bind_eq_ok.1 fits
  split at fits
  next =>
    split at fits
    next same =>
      rw [pure_eq_ok] at fits
      exact fits ▸ .same isKind (by simpa using same)
    next differs =>
      rw [pure_eq_ok] at fits
      exact fits ▸ .converted isKind (by simpa using differs)
  next => simp at fits
  next other notPrimitive notCollection =>
    split at fits
    next => simp at fits
    next element named =>
      have holds : mapping.HoldsRecords memberType element := by
        refine ⟨?_, named⟩
        cases kind with
        | primitive => exact absurd rfl notPrimitive
        | collection => exact absurd rfl notCollection
        | complex => exact .inl isKind
        | entity => exact .inr isKind
      split at fits
      next many =>
        simp only [fitItems, bind_eq_ok, pure_eq_ok] at fits
        obtain ⟨body, constructed, rfl⟩ := fits
        exact .items holds many constructed rfl
      next single =>
        simp only [fitRecord, bind_eq_ok, pure_eq_ok] at fits
        obtain ⟨record, constructed, rfl⟩ := fits
        exact .record holds (by simpa using single) constructed

theorem eval_emptyWhenNull (rows : List Value) (scope : Scope) (value whenNull whenPresent : Expr)
    (ty : DataType) :
    eval rows scope (emptyWhenNull value whenNull whenPresent ty) = (do
      if (← eval rows scope value).isNull then eval rows scope whenNull
      else eval rows scope whenPresent) := by
  have test : eval rows scope value.equalsNull =
      (eval rows scope value >>= fun value => .ok (.bool value.isNull)) :=
    testsNull_equal rows scope value value.type
  simp only [emptyWhenNull, eval, test]
  cases eval rows scope value with
  | error cause => rfl
  | ok value => rfl

theorem construct_isNull {rows : List Value} {scope : Scope} {record : Value}
    (constructed : mapping.construct parameters fuel tree modelType source depth = .ok expr)
    (evaluated : eval rows scope expr = .ok record) : record.isNull = false := by
  obtain ⟨_, bindings, _, -, rfl, -⟩ := construct_eq_ok constructed
  simp only [eval, bind_eq_ok, pure_eq_ok] at evaluated
  obtain ⟨fields, -, rfl⟩ := evaluated
  rfl

theorem construct_member {names : List String}
    (constructed : mapping.construct parameters fuel tree modelType source depth = .ok expr)
    (listed : mapping.schema.Lists modelType member)
    (found : tree.child? member.name = some child)
    (path : mapping.mapPath? modelType member.name = some names) :
    ∃ fuel' read fitted, mapping.readMapped modelType member.name source = .ok read ∧
      mapping.fit (mapping.construct parameters fuel' child) member.ty read depth = .ok fitted ∧
      ∀ rows scope record, eval rows scope expr = .ok record →
        ∃ value, eval rows scope fitted = .ok value ∧
          ∀ whole, readMember record member.name whole = .ok value := by
  obtain ⟨fuel', bindings, members, -, rfl, all, made⟩ := construct_eq_ok constructed
  obtain ⟨all', isAll, isMember⟩ := listed
  cases all.symm.trans isAll
  obtain ⟨binding, isBinding, named, bound⟩ := exists_of_forall₂ made isMember
  have distinct := (Schema.members_unique all).names_nodup
  rw [← Binds.names made] at distinct
  rw [includeFor_of_child found] at bound
  obtain ⟨noChild, -⟩ | ⟨child', same, bound⟩ := bound
  · simp at noChild
  · cases same
    rw [bindingValue_of_mapPath path] at bound
    obtain ⟨read, reads, fits⟩ := bind_eq_ok.1 bound
    refine ⟨fuel', read, binding.2, reads, fits, ?_⟩
    intro rows scope record evaluated
    simp only [eval, bind_eq_ok, pure_eq_ok] at evaluated
    obtain ⟨fields, areFields, rfl⟩ := evaluated
    obtain ⟨fieldNames, values⟩ := evalBindings_eq_ok areFields
    obtain ⟨value, isValue, isField⟩ := values binding isBinding
    rw [← fieldNames] at distinct
    rw [Value.ofFields_of_nodup _ distinct]
    refine ⟨value, isValue, fun whole => ?_⟩
    rw [← named]
    simp only [readMember, Value.findField_of_mem distinct isField]

end Mapping

end QueryProjection
