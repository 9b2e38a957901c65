import QueryProjection.Proofs.Mapping.Records
import QueryProjection.Proofs.Schema.Lookup
import QueryProjection.Value.Json

set_option autoImplicit false

namespace QueryProjection

open Outcome

namespace Value

variable {schema : Schema} {ty : DataType} {value : Value}

/-- Some document is read to the value as one of the type. -/
def IsOf (schema : Schema) (ty : DataType) (value : Value) : Prop :=
  ∃ json, ofJson schema json ty = .ok value

theorem isNull_of_ne_null (present : value ≠ .null) : value.isNull = false := by
  cases value <;> first | rfl | exact absurd rfl present

theorem isOf_null (schema : Schema) (ty : DataType) : IsOf schema ty .null :=
  ⟨.null, by simp only [ofJson]⟩

theorem isOf_default (schema : Schema) (ty : DataType) : IsOf schema ty (defaultOf ty) := by
  unfold defaultOf
  split
  next isCollection =>
    refine ⟨.array [], ?_⟩
    unfold DataType.isCollection at isCollection
    split at isCollection
    next kind element shape => simp only [ofJson, shape, ofItems, ok_bind, pure, Except.pure]
    next => simp at isCollection
  next => exact isOf_null schema ty

theorem memberReaders_isOf {members : List (String × Json)}
    {reader : String × (DataType → Outcome Value)} (isReader : reader ∈ memberReaders schema members)
    (read : reader.2 ty = .ok value) : IsOf schema ty value := by
  induction members with
  | nil => simp [memberReaders] at isReader
  | cons member rest ih =>
    obtain ⟨key, json⟩ := member
    simp only [memberReaders] at isReader
    rcases List.mem_cons.1 isReader with rfl | later
    · exact ⟨json, read⟩
    · exact ih later

theorem mem_of_findReader {α : Type} {readers : List (String × α)} {name : String} {reader : α}
    (found : findReader readers name = some reader) : ∃ key, (key, reader) ∈ readers := by
  unfold findReader at found
  split at found
  next exact_ =>
    cases found
    obtain ⟨before, after, rfl, -⟩ := List.lookup_eq_some_iff.1 exact_
    exact ⟨name, by simp⟩
  next =>
    obtain ⟨⟨key, held⟩, isFound, rfl⟩ := Option.map_eq_some_iff.1 found
    exact ⟨key, List.mem_of_find?_eq_some isFound⟩

abbrev FieldsOf (schema : Schema) (declared : List MemberDecl) (fields : List (String × Value)) :
    Prop :=
  List.Forall₂ (fun member field => field.1 = member.name ∧ IsOf schema member.ty field.2) declared
    fields

theorem readFields_eq_ok {members : List (String × Json)} {declared : List MemberDecl}
    {fields : List (String × Value)}
    (read : readFields (memberReaders schema members) declared = .ok fields) :
    FieldsOf schema declared fields := by
  induction declared generalizing fields with
  | nil =>
    simp only [readFields, Except.ok.injEq] at read
    exact read ▸ .nil
  | cons member rest ih =>
    simp only [readFields] at read
    split at read
    next reader found =>
      simp only [bind_eq_ok, pure_eq_ok] at read
      obtain ⟨value, isValue, others, areOthers, rfl⟩ := read
      obtain ⟨key, isReader⟩ := mem_of_findReader found
      exact .cons ⟨rfl, memberReaders_isOf isReader isValue⟩ (ih areOthers)
    next =>
      simp only [ok_bind, bind_eq_ok, pure_eq_ok] at read
      obtain ⟨others, areOthers, rfl⟩ := read
      exact .cons ⟨rfl, isOf_default schema member.ty⟩ (ih areOthers)

theorem IsOf.record {typeName : String} (isOf : IsOf schema ty value)
    (named : ty.nonNull = .named typeName) :
    value = .null ∨ ∃ declared fields, schema.members typeName = .ok declared ∧
      value = .record typeName fields ∧ FieldsOf schema declared fields := by
  obtain ⟨json, read⟩ := isOf
  cases json with
  | null =>
    simp only [ofJson, Except.ok.injEq] at read
    exact .inl read.symm
  | object members =>
    simp only [ofJson, named, bind_eq_ok, pure_eq_ok] at read
    obtain ⟨declared, listed, fields, areFields, rfl⟩ := read
    exact .inr ⟨declared, fields, listed, rfl, readFields_eq_ok areFields⟩
  | bool _ | integer _ | float _ | string _ | array _ => simp [ofJson, named] at read

theorem ofItems_eq_ok {documents : List Json} {items : List Value}
    (read : ofItems schema documents ty = .ok items) : ∀ item ∈ items, IsOf schema ty item := by
  induction documents generalizing items with
  | nil =>
    simp only [ofItems, Except.ok.injEq] at read
    simp [← read]
  | cons document rest ih =>
    simp only [ofItems, bind_eq_ok, pure_eq_ok] at read
    obtain ⟨first, isFirst, others, areOthers, rfl⟩ := read
    exact List.forall_mem_cons.2 ⟨⟨document, isFirst⟩, ih areOthers⟩

theorem IsOf.items (isOf : IsOf schema ty value) (isCollection : ty.isCollection = true) :
    value = .null ∨ ∃ items, value = .list items ∧ ∀ item ∈ items, IsOf schema ty.elementType item := by
  obtain ⟨json, read⟩ := isOf
  unfold DataType.isCollection at isCollection
  split at isCollection
  next kind element shape =>
    have isElement : ty.elementType = element := by simp only [DataType.elementType, shape]
    cases json with
    | null =>
      simp only [ofJson, Except.ok.injEq] at read
      exact .inl read.symm
    | array documents =>
      simp only [ofJson, shape, bind_eq_ok, pure_eq_ok] at read
      obtain ⟨items, areItems, rfl⟩ := read
      exact .inr ⟨items, rfl, isElement ▸ ofItems_eq_ok areItems⟩
    | bool _ | integer _ | float _ | string _ | object _ => simp [ofJson, shape] at read
  next => simp at isCollection

theorem IsOf.scalar {kind : ScalarKind} (isOf : IsOf schema ty value) (shape : ty.nonNull = .scalar kind) :
    value = .null ∨ ∃ json, scalarOf? kind json = some value := by
  obtain ⟨json, read⟩ := isOf
  have ofScalar (isScalar : readScalar kind json = .ok value) :
      ∃ json, scalarOf? kind json = some value := by
    unfold readScalar at isScalar
    split at isScalar
    next found =>
      cases isScalar
      exact ⟨json, found⟩
    next => simp at isScalar
  cases json with
  | null =>
    simp only [ofJson, Except.ok.injEq] at read
    exact .inl read.symm
  | array _ | object _ => simp [ofJson, shape] at read
  | bool _ | integer _ | float _ | string _ =>
    simp only [ofJson, shape] at read
    exact .inr (ofScalar read)

theorem IsOf.text {kind : ScalarKind} (isOf : IsOf schema ty value) (scalar : ty.nonNull = .scalar kind)
    (textual : kind = .string ∨ kind = .enumeration) :
    value = .null ∨ ∃ text, value.asText? = some text := by
  rcases isOf.scalar scalar with isNull | ⟨json, found⟩
  · exact .inl isNull
  · rcases textual with rfl | rfl <;>
      · obtain ⟨text, -, rfl⟩ := Option.map_eq_some_iff.1 found
        exact .inr ⟨text, rfl⟩

theorem FieldsOf.names {declared : List MemberDecl} {fields : List (String × Value)}
    (areFields : FieldsOf schema declared fields) :
    fields.map Prod.fst = declared.map MemberDecl.name := by
  induction areFields with
  | nil => rfl
  | cons first _ ih => rw [List.map_cons, List.map_cons, first.1, ih]

theorem FieldsOf.unique {declared : List MemberDecl} {fields : List (String × Value)}
    (areFields : FieldsOf schema declared fields) (unique : Schema.Unique declared) :
    (fields.map fun field => Text.foldCase field.1).Nodup := by
  have names : fields.map (fun field => Text.foldCase field.1) =
      declared.map fun member => Text.foldCase member.name := by
    have same := congrArg (List.map Text.foldCase) areFields.names
    simpa [Function.comp_def] using same
  rw [names]
  exact unique

theorem FieldsOf.field_of_mem {declared : List MemberDecl} {fields : List (String × Value)}
    {member : MemberDecl} (areFields : FieldsOf schema declared fields) (isMember : member ∈ declared) :
    ∃ value, (member.name, value) ∈ fields ∧ IsOf schema member.ty value := by
  induction areFields with
  | nil => simp at isMember
  | @cons _ field _ _ first _ ih =>
    rcases List.mem_cons.1 isMember with rfl | later
    · obtain ⟨named, isOf⟩ := first
      exact ⟨field.2, by rw [← named]; exact List.mem_cons_self, isOf⟩
    · obtain ⟨value, isField, isOf⟩ := ih later
      exact ⟨value, List.mem_cons_of_mem _ isField, isOf⟩

theorem findField_of_sameName {fields : List (String × Value)} {name asked : String}
    (unique : (fields.map fun field => Text.foldCase field.1).Nodup) (isField : (name, value) ∈ fields)
    (same : Text.sameName name asked = true) : findField fields asked = some value := by
  have only (field : String × Value) (isOther : field ∈ fields)
      (sameOther : Text.sameName field.1 asked = true) : field = (name, value) := by
    apply List.inj_on_of_nodup_map unique isOther isField
    rw [Text.sameName_iff] at same sameOther
    exact sameOther.trans same.symm
  unfold findField
  split
  next held found =>
    obtain ⟨before, after, rfl, -⟩ := List.lookup_eq_some_iff.1 found
    -- The spelling that is asked for is preferred, and it is that of the same field.
    have isHeld := only (asked, held) (by simp) (Text.sameName_refl asked)
    cases isHeld
    rfl
  next =>
    cases found : fields.find? fun field => Text.sameName field.1 asked with
    | none =>
      have different := List.find?_eq_none.1 found _ isField
      exact absurd same different
    | some field =>
      have isField' := only field (List.mem_of_find?_eq_some found)
        (List.find?_some (p := fun field : String × Value => Text.sameName field.1 asked) found)
      simp [isField']

def along : Value → List String → Value
  | value, [] => value
  | value, name :: rest => ((value.field? name).getD .null).along rest

end Value

end QueryProjection
