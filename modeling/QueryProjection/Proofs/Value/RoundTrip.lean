import QueryProjection.Proofs.Calendar.Instants
import QueryProjection.Proofs.Json.Members
import QueryProjection.Proofs.Number.DecimalText
import QueryProjection.Proofs.Schema.Types
import QueryProjection.Proofs.UuidText
import QueryProjection.Proofs.Value.Json

set_option autoImplicit false

namespace QueryProjection

open Outcome

namespace Binary64

theorem isFinite_ofInt {number : Int} (fits : number.natAbs < 2 ^ 64) :
    (ofInt number).isFinite = true := by
  have size : number.natAbs.log2 < 64 := by
    by_cases isZero : number.natAbs = 0
    · rw [isZero]
      decide
    · exact (Nat.log2_lt isZero).2 fits
  have exponent : unitExponent number.natAbs 1 ≤ 12 := by
    have one_ : Nat.log2 1 = 0 := by decide
    simp only [unitExponent, one_, leastExponent]
    split <;> omega
  unfold ofInt ofRatio
  split
  next => rfl
  next =>
    dsimp only
    rw [if_neg]
    · rfl
    · simp only [greatestExponent]
      split <;> omega

end Binary64

namespace Json

variable {json : Json}

theorem asSigned?_integer {number : Int} (isSigned : json.asSigned? = some number) :
    (Json.integer number).asSigned? = some number := by
  unfold asSigned? at isSigned
  split at isSigned
  next value =>
    split at isSigned
    next fits =>
      cases isSigned
      exact if_pos fits
    next => simp at isSigned
  next => simp at isSigned

theorem isFinite_of_asFloat? {number : Binary64} (isFloat : json.asFloat? = some number) :
    number.isFinite = true := by
  unfold asFloat? at isFloat
  split at isFloat
  next value =>
    split at isFloat
    next fits =>
      cases isFloat
      apply Binary64.isFinite_ofInt
      simp only [fitsSigned, fitsUnsigned, Bool.or_eq_true, Bool.and_eq_true, decide_eq_true_eq,
        Nat.pow_eq] at fits
      omega
    next => simp at isFloat
  next value =>
    split at isFloat
    next isFinite =>
      cases isFloat
      exact isFinite
    next => simp at isFloat
  next => simp at isFloat

end Json

namespace Value

variable {schema : Schema} {ty : DataType} {kind : ScalarKind} {value : Value} {json : Json}

theorem ofUntypedItems_eq (items : List Json) : ofUntypedItems items = items.map ofUntypedJson := by
  induction items with
  | nil => rfl
  | cons item rest ih => rw [ofUntypedItems, ih, List.map_cons]

theorem ofUntypedMembers_eq (members : List (String × Json)) :
    ofUntypedMembers members = members.map (Prod.map id ofUntypedJson) := by
  induction members with
  | nil => rfl
  | cons member rest ih =>
    rw [ofUntypedMembers, ih]
    rfl

theorem memberReaders_eq (schema : Schema) (members : List (String × Json)) :
    memberReaders schema members = members.map (Prod.map id (ofJson schema)) := by
  induction members with
  | nil => rfl
  | cons member rest ih =>
    rw [memberReaders, ih]
    rfl

theorem itemsToJson_eq (items : List Value) : itemsToJson items = items.map toJson := by
  induction items with
  | nil => rfl
  | cons item rest ih => rw [itemsToJson, ih, List.map_cons]

theorem fieldsToJson_eq (fields : List (String × Value)) :
    fieldsToJson fields = fields.map (Prod.map id toJson) := by
  induction fields with
  | nil => rfl
  | cons field rest ih =>
    rw [fieldsToJson, ih]
    rfl

theorem toJson_float {number : Binary64} (isFinite : number.isFinite = true) :
    (Value.float number).toJson = .float number := by
  rw [toJson, if_pos isFinite]

theorem numberOf?_toJson (isNumber : numberOf? json = some value) :
    ofUntypedJson value.toJson = value := by
  unfold numberOf? at isNumber
  dsimp only at isNumber
  split at isNumber
  next number isSigned =>
    cases isNumber
    simp only [toJson, ofUntypedJson, numberOf?, Json.asSigned?_integer isSigned, Option.getD_some]
  next =>
    obtain ⟨number, isFloat, rfl⟩ := Option.map_eq_some_iff.1 isNumber
    have isFinite := Json.isFinite_of_asFloat? isFloat
    rw [toJson_float isFinite]
    simp only [ofUntypedJson, numberOf?, Json.asSigned?, Json.asFloat?, isFinite, if_true,
      Option.map_some, Option.getD_some]

theorem ofUntypedNumber_toJson (json : Json) :
    ofUntypedJson ((numberOf? json).getD .null).toJson = (numberOf? json).getD .null := by
  cases isNumber : numberOf? json with
  | none => rfl
  | some value => exact numberOf?_toJson isNumber

theorem ofUntypedJson_toJson (json : Json) :
    ofUntypedJson (ofUntypedJson json).toJson = ofUntypedJson json := by
  match json with
  | .null => rfl
  | .bool value => rfl
  | .integer value => exact ofUntypedNumber_toJson _
  | .float value => exact ofUntypedNumber_toJson _
  | .string text => rfl
  | .array items =>
    have each : ∀ item ∈ items, ofUntypedJson (ofUntypedJson item).toJson = ofUntypedJson item :=
      fun item isItem => ofUntypedJson_toJson item
    simp only [ofUntypedJson, ofUntypedItems_eq, toJson, itemsToJson_eq, List.map_map]
    exact congrArg Value.list (List.map_congr_left each)
  | .object members =>
    have each : ∀ member ∈ members,
        ofUntypedJson (ofUntypedJson member.2).toJson = ofUntypedJson member.2 :=
      fun member isMember =>
        have := Json.sizeOf_lt_of_mem isMember
        ofUntypedJson_toJson member.2
    rw [ofUntypedJson, ofUntypedMembers_eq, Json.sortMembers_map, toJson, fieldsToJson_eq,
      Json.ofMembers, ofUntypedJson, ofUntypedMembers_eq]
    -- What is written has its keys in order, so that reading it does not move its members.
    have inOrder := (Json.sortMembers_inKeyOrder members).sortMembers_eq
    simp only [Json.sortMembers_map, inOrder]
    rw [List.map_map, List.map_map]
    refine congrArg (Value.record "Object") (List.map_congr_left fun member isMember => ?_)
    exact Prod.ext rfl (each member (Json.mem_of_mem_sortMembers isMember))
termination_by sizeOf json

theorem ofJson_object (shape : ty.nonNull = .object) (json : Json) :
    ofJson schema json ty = .ok (ofUntypedJson json) := by
  cases json <;> simp only [ofJson, shape, ofUntypedJson]

theorem ofJson_scalar (shape : ty.nonNull = .scalar kind)
    (isScalar : scalarOf? kind json = some value) :
    ofJson schema json ty = .ok value := by
  cases json with
  | null | array _ | object _ =>
    cases kind <;> simp [scalarOf?, Json.asBool?, Json.asSigned?, Json.asFloat?, Json.asText?,
      decimalOf?] at isScalar
  | bool _ | integer _ | float _ | string _ => simp only [ofJson, shape, readScalar, isScalar]

theorem scalarOf?_toJson (isScalar : scalarOf? kind json = some value) :
    scalarOf? kind value.toJson = some value := by
  cases kind with
  | boolean =>
    obtain ⟨held, -, rfl⟩ := Option.map_eq_some_iff.1 isScalar
    rfl
  | int32 =>
    obtain ⟨number, isNumber, rfl⟩ := Option.map_eq_some_iff.1 isScalar
    obtain ⟨isSigned, fits⟩ := Option.filter_eq_some_iff.1 isNumber
    simp only [scalarOf?, toJson, Json.asSigned?_integer isSigned, Option.filter_some, fits, if_true,
      Option.map_some]
  | int64 =>
    obtain ⟨number, isSigned, rfl⟩ := Option.map_eq_some_iff.1 isScalar
    simp only [scalarOf?, toJson, Json.asSigned?_integer isSigned, Option.map_some]
  | double =>
    obtain ⟨number, isFloat, rfl⟩ := Option.map_eq_some_iff.1 isScalar
    -- Only finite numbers are read, and they are the ones that are written as numbers.
    have isFinite := Json.isFinite_of_asFloat? isFloat
    simp only [scalarOf?, toJson_float isFinite, Json.asFloat?, isFinite, if_true, Option.map_some]
  | decimal =>
    obtain ⟨number, isNumber, rfl⟩ := Option.map_eq_some_iff.1 isScalar
    have valid : number.Valid := by
      unfold decimalOf? at isNumber
      split at isNumber
      all_goals first | exact Decimal.valid_of_read? isNumber | simp at isNumber
    simp only [scalarOf?, toJson, decimalOf?, Decimal.read?_toText valid, Option.map_some]
  | string | enumeration =>
    obtain ⟨text, -, rfl⟩ := Option.map_eq_some_iff.1 isScalar
    rfl
  | uuid =>
    obtain ⟨uuid, isUuid, rfl⟩ := Option.map_eq_some_iff.1 isScalar
    obtain ⟨text, -, read⟩ := Option.bind_eq_some_iff.1 isUuid
    simp only [scalarOf?, toJson, Json.asText?, Option.bind_some,
      Uuid.read?_toText (Uuid.bits_lt read), Option.map_some]
  | dateTime =>
    obtain ⟨timestamp, isTimestamp, rfl⟩ := Option.map_eq_some_iff.1 isScalar
    obtain ⟨text, -, read⟩ := Option.bind_eq_some_iff.1 isTimestamp
    simp only [scalarOf?, toJson, Json.asText?, Option.bind_some,
      Timestamp.read?_toZuluText (Timestamp.valid_of_read? read), Option.map_some]
  | date =>
    obtain ⟨date, isDate, rfl⟩ := Option.map_eq_some_iff.1 isScalar
    obtain ⟨text, -, read⟩ := Option.bind_eq_some_iff.1 isDate
    simp only [scalarOf?, toJson, Json.asText?, Option.bind_some,
      Date.read?_toText (Date.valid_of_read? read), Option.map_some]
  | time =>
    obtain ⟨time, isTime, rfl⟩ := Option.map_eq_some_iff.1 isScalar
    obtain ⟨text, -, read⟩ := Option.bind_eq_some_iff.1 isTime
    simp only [scalarOf?, toJson, Json.asText?, Option.bind_some,
      TimeOfDay.read?_toText (TimeOfDay.valid_of_read? read), Option.map_some]

theorem ofItems_toJson {items : List Value}
    (each : ∀ item ∈ items, ofJson schema item.toJson ty = .ok item) :
    ofItems schema (items.map toJson) ty = .ok items := by
  induction items with
  | nil => rfl
  | cons item rest ih =>
    obtain ⟨first, others⟩ := List.forall_mem_cons.1 each
    rw [List.map_cons, ofItems, first, ok_bind, ih others]
    rfl

theorem findReader_field {fields : List (String × Value)} {name : String}
    (distinct : (fields.map Prod.fst).Nodup) (isField : (name, value) ∈ fields) :
    findReader (memberReaders schema (Json.sortMembers (fieldsToJson fields))) name =
      some (ofJson schema value.toJson) := by
  have written : (name, ofJson schema value.toJson) ∈
      fields.map (Prod.map id (ofJson schema) ∘ Prod.map id toJson) :=
    List.mem_map.2 ⟨_, isField, rfl⟩
  have distinct' : ((fields.map (Prod.map id (ofJson schema) ∘ Prod.map id toJson)).map
      Prod.fst).Nodup := by
    rw [List.map_map]
    exact distinct
  rw [memberReaders_eq, ← Json.sortMembers_map, fieldsToJson_eq, List.map_map, findReader,
    Json.lookup_sortMembers distinct', Json.lookup_of_mem distinct' written]

theorem FieldsOf.readFields {declared : List MemberDecl} {fields : List (String × Value)}
    {readers : List (String × (DataType → Outcome Value))} (areFields : FieldsOf schema declared fields)
    (each : ∀ field ∈ fields, ∃ reader, findReader readers field.1 = some reader ∧
      ∀ ty, IsOf schema ty field.2 → reader ty = .ok field.2) :
    readFields readers declared = .ok fields := by
  induction areFields with
  | nil => rfl
  | @cons member field _ _ first _ ih =>
    obtain ⟨named, isOf⟩ := first
    obtain ⟨⟨reader, found, reads⟩, others⟩ := List.forall_mem_cons.1 each
    simp only [Value.readFields, ← named, found]
    rw [reads _ isOf, ok_bind, ih others]
    rfl

theorem IsOf.returns {ty : DataType} {value : Value} (isOf : IsOf schema ty value) :
    ofJson schema value.toJson ty = .ok value := by
  match shape : ty.nonNull with
  | .scalar kind =>
    rcases isOf.scalar shape with rfl | ⟨json, isScalar⟩
    · rw [toJson, ofJson]
    · exact ofJson_scalar shape (scalarOf?_toJson isScalar)
  | .object =>
    obtain ⟨json, read⟩ := isOf
    rw [ofJson_object shape, Except.ok.injEq] at read
    rw [ofJson_object shape, ← read, ofUntypedJson_toJson]
  | .collection kind element =>
    have isCollection : ty.isCollection = true := by rw [DataType.isCollection, shape]
    have isElement : ty.elementType = element := by rw [DataType.elementType, shape]
    rcases isOf.items isCollection with rfl | ⟨items, same, areElements⟩
    · rw [toJson, ofJson]
    · have each : ∀ item ∈ items, ofJson schema item.toJson element = .ok item :=
        fun item isItem => (isElement ▸ areElements item isItem).returns
      simp only [same, toJson, itemsToJson_eq, ofJson, shape, ofItems_toJson each, ok_bind]
      rfl
  | .named typeName =>
    rcases isOf.record shape with rfl | ⟨declared, fields, listed, same, areFields⟩
    · rw [toJson, ofJson]
    · -- Fields are told apart by their names, so each one is read from what was written for it.
      have distinct : (fields.map Prod.fst).Nodup :=
        areFields.names ▸ (Schema.members_unique listed).names_nodup
      have read := areFields.readFields fun field isField =>
        ⟨_, findReader_field distinct isField, fun ty isOf => isOf.returns⟩
      simp only [same, toJson, Json.ofMembers, ofJson, shape, listed, read, ok_bind]
      rfl
  | .nullable inner => exact absurd shape (DataType.nonNull_ne_nullable ty inner)
termination_by sizeOf value
decreasing_by
  · have smaller := List.sizeOf_lt_of_mem isItem
    simp only [same, list.sizeOf_spec]
    omega
  · have smaller := Json.sizeOf_lt_of_mem isField
    simp only [same, record.sizeOf_spec]
    omega

/-- Whatever is read as a value of a type, what is written of the value is read back to it. -/
theorem ofJson_toJson (schema : Schema) (ty : DataType) (json : Json) (value : Value)
    (read : ofJson schema json ty = .ok value) : ofJson schema value.toJson ty = .ok value := by
  have isOf : IsOf schema ty value := ⟨json, read⟩
  exact isOf.returns

def cargoSchema : Schema :=
  ⟨[⟨"Cargo", .complex, none,
      [⟨"Code", .scalar .uuid⟩, ⟨"Weight", .nullable (.scalar .decimal)⟩]⟩,
    ⟨"Crate", .complex, some "Cargo",
      [⟨"weight", .scalar .decimal⟩, ⟨"Loaded", .scalar .dateTime⟩,
        ⟨"Marks", .collection .list (.scalar .string)⟩, ⟨"Notes", .object⟩]⟩]⟩

def crateDocument : Json :=
  .object [
    ("CODE", .string "6f9619ff8b86d011b42d00c04fc964ff"),
    ("Loaded", .string "2020-05-01t12:00:00.5+02:00"),
    ("Notes", .object [("a", .array [.integer 18446744073709551615, .null]), ("b", .string "up")]),
    ("Weight", .string "12.50")]

def writtenNames (value : Value) : List String :=
  match value.toJson with
  | .object members => members.map Prod.fst
  | _ => []

theorem ofJson_toJson_crate :
    ∃ value, ofJson cargoSchema crateDocument (.named "Crate") = .ok value ∧
      value.writtenNames = ["Code", "Loaded", "Marks", "Notes", "weight"] ∧
      ofJson cargoSchema value.toJson (.named "Crate") = .ok value := by
  obtain ⟨value, read, names⟩ := exists_of_toOption_any
    (ofJson cargoSchema crateDocument (.named "Crate"))
    (fun value => value.writtenNames == ["Code", "Loaded", "Marks", "Notes", "weight"])
    (by decide +kernel)
  exact ⟨value, read, beq_iff_eq.1 names,
    ofJson_toJson cargoSchema (.named "Crate") crateDocument value read⟩

end Value

end QueryProjection
