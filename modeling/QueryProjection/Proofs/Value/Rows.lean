import QueryProjection.Proofs.Schema.Types
import QueryProjection.Proofs.Value.Json

set_option autoImplicit false

namespace QueryProjection

open Outcome

namespace Schema

variable {schema : Schema} {ty ty' : DataType} {typeName : String}

def recordType? (schema : Schema) (ty : DataType) : Option String :=
  match ty.elementType.nonNull with
  | .named name => if schema.contains name then some name else none
  | _ => none

theorem recordType?_congr (schema : Schema) (same : ty.nonNull = ty'.nonNull) :
    schema.recordType? ty = schema.recordType? ty' := by
  simp only [recordType?, DataType.elementType_congr same]

theorem recordType?_eq_some (isRecord : schema.recordType? ty = some typeName) :
    ty.elementType.nonNull = .named typeName := by
  unfold recordType? at isRecord
  split at isRecord
  next name shape =>
    split at isRecord
    next =>
      cases isRecord
      exact shape
    next => simp at isRecord
  next => simp at isRecord

theorem recordType?_elementType (schema : Schema) (single : ty.elementType.isCollection = false) :
    schema.recordType? ty.elementType = schema.recordType? ty := by
  simp only [recordType?, DataType.elementType_of_single single, DataType.nonNull_nonNull]

theorem recordType?_isSome (schema : Schema) (ty : DataType) :
    (schema.recordType? ty).isSome = true ↔
      schema.targetKind ty = .ok .complex ∨ schema.targetKind ty = .ok .entity := by
  unfold recordType? targetKind memberKind
  cases ty.elementType.nonNull with
  | named name =>
    simp only [contains, get]
    obtain found | ⟨typeDecl, found⟩ := Option.eq_none_or_eq_some (schema.find? name)
    · simp [found]
    · by_cases complex : typeDecl.kind = .complex <;> simp [found, complex]
  | scalar _ | nullable _ | collection _ _ | object => simp

end Schema

namespace Value

variable {schema : Schema} {typeName : String} {row value : Value} {ty : DataType}

/-- A value that is reached in a row of a registered type, as a value of a type. -/
inductive Holds (schema : Schema) (typeName : String) (row : Value) : DataType → Value → Prop where
  | itself : Holds schema typeName row (.named typeName) row
  | member {ty : DataType} {name : String} {fields : List (String × Value)} {member : MemberDecl}
      {value : Value} (held : Holds schema typeName row ty (.record name fields))
      (named : ty.nonNull = .named name) (listed : schema.Lists name member)
      (isField : (member.name, value) ∈ fields) : Holds schema typeName row member.ty value
  | item {ty : DataType} {items : List Value} {value : Value}
      (held : Holds schema typeName row ty (.list items)) (isCollection : ty.isCollection = true)
      (isItem : value ∈ items) : Holds schema typeName row ty.elementType value

/-- A row that is read from a document. Members may be null wherever they are, but neither the row nor
an item of a collection of records is. -/
structure IsRow (schema : Schema) (typeName : String) (row : Value) : Prop where
  read : IsOf schema (.named typeName) row
  present : row ≠ .null
  items : ∀ ty items, row.Holds schema typeName ty (.list items) →
    (schema.recordType? ty).isSome = true → .null ∉ items

theorem Holds.isOf (isRow : IsRow schema typeName row) (held : row.Holds schema typeName ty value) :
    IsOf schema ty value := by
  induction held with
  | itself => exact isRow.read
  | @member ty name fields member value _ named listed isField ih =>
    obtain ⟨all, isAll, isMember⟩ := listed
    rcases ih.record named with null_ | ⟨declared, fields', isDeclared, same, areFields⟩
    · simp at null_
    cases same
    cases isAll.symm.trans isDeclared
    obtain ⟨other, isOther, named, isOf⟩ := exists_of_forall₂ areFields.flip isField
    have same : other = member := by
      refine (Schema.members_unique isAll).eq_of_sameName isOther isMember ?_
      rw [← named]
      exact Text.sameName_refl _
    exact same ▸ isOf
  | item _ isCollection isItem ih =>
    rcases ih.items isCollection with null_ | ⟨items, same, areOf⟩
    · simp at null_
    cases same
    exact areOf _ isItem

def MayBe (schema : Schema) (typeName : String) (row : Value) (ty : DataType) (value : Value) :
    Prop :=
  value ≠ .null → ∃ held, held.nonNull = ty.nonNull ∧ row.Holds schema typeName held value

theorem mayBe_null (schema : Schema) (typeName : String) (row : Value) (ty : DataType) :
    MayBe schema typeName row ty .null :=
  fun present => absurd rfl present

theorem mayBe_row (schema : Schema) (typeName : String) (row : Value) :
    MayBe schema typeName row (.named typeName) row :=
  fun _ => ⟨_, rfl, .itself⟩

theorem MayBe.congr {ty' : DataType} (mayBe : MayBe schema typeName row ty value)
    (same : ty.nonNull = ty'.nonNull) : MayBe schema typeName row ty' value := by
  intro present
  obtain ⟨held, isType, holds⟩ := mayBe present
  exact ⟨held, isType.trans same, holds⟩

theorem MayBe.readMember {name : String} {member : MemberDecl} (isRow : IsRow schema typeName row)
    (mayBe : MayBe schema typeName row ty value) (present : value ≠ .null)
    (named : ty.nonNull = .named name) (lists : schema.ListsAs name member) (whole : Expr) :
    ∃ held, Evaluation.readMember value member.name whole = .ok held ∧
      MayBe schema typeName row member.ty held := by
  obtain ⟨heldType, isType, holds⟩ := mayBe present
  have named : heldType.nonNull = .named name := isType.trans named
  rcases (holds.isOf isRow).record named with null_ | ⟨declared, fields, isDeclared, rfl, areFields⟩
  · exact absurd null_ present
  obtain ⟨listed, isListed, sameName, sameType⟩ := lists declared isDeclared
  obtain ⟨held, isField, -⟩ := areFields.field_of_mem isListed
  have unique := areFields.unique (Schema.members_unique isDeclared)
  refine ⟨held, ?_, fun _ => ⟨listed.ty, sameType, ?_⟩⟩
  · simp only [Evaluation.readMember, findField_of_sameName unique isField sameName]
  · exact .member holds named ⟨declared, isDeclared, isListed⟩ isField

theorem MayBe.items (isRow : IsRow schema typeName row) (mayBe : MayBe schema typeName row ty value)
    (present : value ≠ .null) (isCollection : ty.isCollection = true) :
    ∃ items, value = .list items ∧ (∀ item ∈ items, MayBe schema typeName row ty.elementType item) ∧
      ((schema.recordType? ty).isSome = true → .null ∉ items) := by
  obtain ⟨heldType, isType, holds⟩ := mayBe present
  have isCollection : heldType.isCollection = true :=
    (DataType.isCollection_congr isType).trans isCollection
  rcases (holds.isOf isRow).items isCollection with null_ | ⟨items, rfl, -⟩
  · exact absurd null_ present
  refine ⟨items, rfl, fun item isItem _ => ?_, fun isRecord => isRow.items heldType items holds ?_⟩
  · exact ⟨_, congrArg DataType.nonNull (DataType.elementType_congr isType),
      .item holds isCollection isItem⟩
  · rwa [Schema.recordType?_congr schema isType]

mutual

def itemsPresent : Value → Bool
  | .record _ fields => fieldsHaveItems fields
  | .list items => allPresent items
  | _ => true

def fieldsHaveItems : List (String × Value) → Bool
  | [] => true
  | (_, value) :: rest => value.itemsPresent && fieldsHaveItems rest

def allPresent : List Value → Bool
  | [] => true
  | item :: rest => !item.isNull && item.itemsPresent && allPresent rest

end

theorem fieldsHaveItems_iff {fields : List (String × Value)} :
    fieldsHaveItems fields = true ↔ ∀ field ∈ fields, field.2.itemsPresent = true := by
  induction fields with
  | nil => simp [fieldsHaveItems]
  | cons field rest ih => simp [fieldsHaveItems, ih]

theorem allPresent_iff {items : List Value} :
    allPresent items = true ↔ ∀ item ∈ items, item.isNull = false ∧ item.itemsPresent = true := by
  induction items with
  | nil => simp [allPresent]
  | cons item rest ih => simp [allPresent, ih]

theorem isRow_of_itemsPresent (read : IsOf schema (.named typeName) row) (present : row.isNull = false)
    (free : row.itemsPresent = true) : IsRow schema typeName row := by
  have below {ty : DataType} {value : Value} (held : row.Holds schema typeName ty value) :
      value.itemsPresent = true := by
    induction held with
    | itself => exact free
    | member _ _ _ isField ih => exact fieldsHaveItems_iff.1 ih _ isField
    | item _ _ isItem ih => exact (allPresent_iff.1 ih _ isItem).2
  refine ⟨read, ?_, fun ty items held _ isNull => ?_⟩
  · rintro rfl
    simp [isNull] at present
  · have present := (allPresent_iff.1 (below held) _ isNull).1
    simp [Value.isNull] at present

end Value

end QueryProjection
