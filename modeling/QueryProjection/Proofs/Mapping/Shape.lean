import QueryProjection.Proofs.Mapping.Reading
import QueryProjection.Proofs.Value.Rows

set_option autoImplicit false

namespace QueryProjection.Mapping

open Outcome

variable (mapping : Mapping)

def suppliedBelow (supplied : Bool) (typeName member : String) : Bool :=
  supplied || (mapping.mapPath? typeName member).isNone

mutual

def Shapes (supplied : Bool) (typeName : String) : Value → Prop
  | .record name fields => name = typeName ∧ ∃ members, mapping.schema.members typeName = .ok members ∧
      FieldsShape supplied typeName members fields
  | _ => False

def FieldsShape (supplied : Bool) (typeName : String) :
    List MemberDecl → List (String × Value) → Prop
  | [], [] => True
  | member :: members, (name, value) :: fields =>
      name = member.name ∧
      (∀ element, mapping.schema.recordType? member.ty = some element →
        if member.ty.isCollection then
          ListShapes (mapping.suppliedBelow supplied typeName member.name) element value
        else value = .null ∨
          Shapes (mapping.suppliedBelow supplied typeName member.name) element value) ∧
      FieldsShape supplied typeName members fields
  | _, _ => False

def ListShapes (supplied : Bool) (element : String) : Value → Prop
  | .list items => ItemsShape supplied element items
  | .null => supplied = true
  | _ => False

def ItemsShape (supplied : Bool) (element : String) : List Value → Prop
  | [] => True
  | item :: rest => (supplied = true ∧ item = .null ∨ Shapes supplied element item) ∧
      ItemsShape supplied element rest

end

variable {mapping} {supplied : Bool} {typeName element : String}

def MemberShapes (mapping : Mapping) (supplied : Bool) (ty : DataType) (value : Value) : Prop :=
  ∀ element, mapping.schema.recordType? ty = some element →
    if ty.isCollection then mapping.ListShapes supplied element value
    else value = .null ∨ mapping.Shapes supplied element value

theorem fieldsShape_of_forall₂ {members : List MemberDecl} {fields : List (String × Value)}
    (each : List.Forall₂ (fun member field => field.1 = member.name ∧
      mapping.MemberShapes (mapping.suppliedBelow supplied typeName member.name) member.ty field.2)
      members fields) : mapping.FieldsShape supplied typeName members fields := by
  induction each with
  | nil => trivial
  | cons first _ ih => exact ⟨first.1, first.2, ih⟩

theorem itemsShape_of_forall {items : List Value}
    (each : ∀ item ∈ items, supplied = true ∧ item = .null ∨ mapping.Shapes supplied element item) :
    mapping.ItemsShape supplied element items := by
  induction items with
  | nil => trivial
  | cons item rest ih =>
    obtain ⟨first, later⟩ := List.forall_mem_cons.1 each
    exact ⟨first, ih later⟩

theorem memberShapes_default (mapping : Mapping) (supplied : Bool) (ty : DataType) :
    mapping.MemberShapes supplied ty (Value.defaultOf ty) := by
  intro element _
  unfold Value.defaultOf
  split
  next => trivial
  next => exact .inl rfl

theorem memberShapes_of_isOf (value : Value) {ty : DataType}
    (isOf : Value.IsOf mapping.schema ty value) : mapping.MemberShapes true ty value := by
  intro element isRecord
  have named := Schema.recordType?_eq_some isRecord
  by_cases isCollection : ty.isCollection = true
  · rw [if_pos isCollection]
    rcases isOf.items isCollection with rfl | ⟨items, isList, areItems⟩
    · rfl
    rw [isList]
    refine itemsShape_of_forall fun item isItem => ?_
    have smaller : sizeOf item < sizeOf value := by
      have inItems := List.sizeOf_lt_of_mem isItem
      rw [isList, Value.list.sizeOf_spec]
      omega
    -- An item of records is no collection itself.
    have single : ty.elementType.isCollection = false := by simp [DataType.isCollection, named]
    have isElement : mapping.schema.recordType? ty.elementType = some element := by
      rwa [mapping.schema.recordType?_elementType single]
    have shapes := memberShapes_of_isOf item (areItems item isItem) element isElement
    rw [if_neg (by simp [single])] at shapes
    exact shapes.imp (fun null_ => ⟨rfl, null_⟩) id
  · rw [if_neg isCollection]
    rw [DataType.elementType_of_single (by simpa using isCollection), DataType.nonNull_nonNull] at named
    rcases isOf.record named with null_ | ⟨declared, fields, isRecord, listed, areFields⟩
    · exact .inl null_
    rw [listed]
    refine .inr ⟨rfl, declared, isRecord, fieldsShape_of_forall₂ ?_⟩
    refine List.forall₂_iff_zip.2 ⟨areFields.length_eq, fun {member field} isPair => ?_⟩
    obtain ⟨sameName, isOf⟩ := (List.forall₂_iff_zip.1 areFields).2 isPair
    have smaller : sizeOf field.2 < sizeOf value := by
      have inFields := List.sizeOf_lt_of_mem (List.of_mem_zip isPair).2
      have inField : sizeOf field.2 < sizeOf field := by
        obtain ⟨name, held⟩ := field
        show sizeOf held < sizeOf (name, held)
        rw [Prod.mk.sizeOf_spec]
        omega
      rw [listed, Value.record.sizeOf_spec]
      omega
    exact ⟨sameName, memberShapes_of_isOf field.2 isOf⟩
termination_by sizeOf value

end QueryProjection.Mapping
