import QueryProjection.Proofs.Outcome
import QueryProjection.Schema.Basic

set_option autoImplicit false

namespace QueryProjection

namespace DataType

variable {ty ty' : DataType} {typeName : String}

theorem nonNull_ne_nullable (ty inner : DataType) : ty.nonNull ≠ .nullable inner := by
  induction ty with
  | nullable ty ih => exact ih
  | scalar _ | named _ | collection _ _ | object => exact DataType.noConfusion

theorem elementType_congr (same : ty.nonNull = ty'.nonNull) : ty.elementType = ty'.elementType := by
  simp only [elementType, same]

theorem isCollection_congr (same : ty.nonNull = ty'.nonNull) :
    ty.isCollection = ty'.isCollection := by
  simp only [isCollection, same]

theorem elementType_of_single (single : ty.isCollection = false) : ty.elementType = ty.nonNull := by
  unfold isCollection at single
  unfold elementType
  split at single
  next => simp at single
  next => rfl

theorem elementType_of_typeName? (named : ty.typeName? = some typeName) :
    ty.elementType = .named typeName := by
  unfold typeName? at named
  split at named
  next name shape =>
    cases named
    exact shape
  next => simp at named

end DataType

namespace Schema

variable {schema : Schema} {ty : DataType} {element : String} {kind : MemberKind}

theorem targetKind_eq_ok (isKind : schema.targetKind ty = .ok kind)
    (named : ty.typeName? = some element) :
    ∃ typeDecl ∈ schema.types, typeDecl.name = element ∧
      kind = if typeDecl.kind = .complex then .complex else .entity := by
  simp only [targetKind, memberKind, DataType.elementType_of_typeName? named, DataType.nonNull,
    get] at isKind
  cases found : schema.find? element with
  | none => simp [found] at isKind
  | some typeDecl =>
    simp only [found, Except.ok.injEq] at isKind
    exact ⟨typeDecl, List.mem_of_find?_eq_some found, by simpa using List.find?_some found,
      isKind.symm⟩

theorem targetKind_of_get {typeDecl : TypeDecl} (named : ty.typeName? = some element)
    (registered : schema.get element = .ok typeDecl) : ∃ kind, schema.targetKind ty = .ok kind := by
  simp only [targetKind, memberKind, DataType.elementType_of_typeName? named, DataType.nonNull,
    registered]
  exact ⟨_, rfl⟩

theorem targetKind_ne_primitive (named : ty.typeName? = some element) :
    schema.targetKind ty ≠ .ok .primitive := by
  intro primitive
  obtain ⟨typeDecl, -, -, isKind⟩ := targetKind_eq_ok primitive named
  split at isKind <;> contradiction

end Schema

end QueryProjection
