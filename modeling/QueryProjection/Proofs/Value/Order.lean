import Mathlib.Algebra.Order.Field.Rat
import Mathlib.Data.Rat.Cast.Order
import Mathlib.Order.Compare
import Mathlib.Tactic.FieldSimp
import Mathlib.Tactic.Positivity
import QueryProjection.Value.Order

set_option autoImplicit false

namespace QueryProjection

open Std (OrientedCmp TransCmp)

theorem compare_strictMono {α β : Type} [LinearOrder α] [LinearOrder β] {place : α → β}
    (mono : StrictMono place) (left right : α) :
    compare (place left) (place right) = compare left right := by
  rw [← cmp_eq_compare, ← cmp_eq_compare, mono.cmp_map_eq]

instance : TransCmp Date.compareDate :=
  inferInstanceAs (TransCmp (compareLex (compareOn Date.year)
    (compareLex (compareOn Date.month) (compareOn Date.day))))

instance : TransCmp TimeOfDay.compareTime :=
  inferInstanceAs (TransCmp (compareLex (compareOn TimeOfDay.second)
    (compareOn TimeOfDay.nanosecond)))

instance : TransCmp Timestamp.compareInstant :=
  inferInstanceAs (TransCmp (compareLex (compareOn Timestamp.second)
    (compareOn Timestamp.nanosecond)))

namespace Decimal

def toRat (decimal : Decimal) : ℚ := decimal.coefficient / 10 ^ decimal.scale

theorem compareValue_eq (left right : Decimal) :
    left.compareValue right = compare left.toRat right.toRat := by
  have mono : StrictMono fun number : ℤ =>
      (number : ℚ) / (10 ^ left.scale * 10 ^ right.scale) := by
    intro number number' less
    have cast : (number : ℚ) < number' := Int.cast_lt.2 less
    exact div_lt_div_of_pos_right cast (by positivity)
  have first : (left.coefficient * Nat.pow 10 right.scale : ℤ) /
      (10 ^ left.scale * 10 ^ right.scale) = left.toRat := by
    simp [toRat]
    field_simp
  have second : (right.coefficient * Nat.pow 10 left.scale : ℤ) /
      (10 ^ left.scale * 10 ^ right.scale) = right.toRat := by
    simp [toRat]
    field_simp
  rw [compareValue, ← compare_strictMono mono, first, second]

instance : TransCmp compareValue := by
  have asRat : compareValue = compareOn toRat := by
    funext left right
    exact compareValue_eq left right
  rw [asRat]
  infer_instance

end Decimal

namespace Binary64

def side : Binary64 → ℤ
  | .infinite negative => if negative then -1 else 1
  | _ => 0

def finitePart : Binary64 → ℚ
  | .finite negative mantissa exponent => (if negative then -1 else 1) * mantissa * 2 ^ exponent
  | _ => 0

def comparePlaces : Binary64 → Binary64 → Ordering :=
  compareLex (compareOn side) (compareOn finitePart)

instance : TransCmp comparePlaces :=
  inferInstanceAs (TransCmp (compareLex (compareOn side) (compareOn finitePart)))

theorem signedUnits_mul (negative : Bool) (mantissa : Nat) {exponent least : ℤ}
    (below : least ≤ exponent) :
    (signedUnits negative mantissa exponent least : ℚ) * 2 ^ least =
      (if negative then -1 else 1) * mantissa * 2 ^ exponent := by
  have power : (2 : ℚ) ^ (exponent - least).toNat * 2 ^ least = 2 ^ exponent := by
    rw [← zpow_natCast, Int.toNat_of_nonneg (by omega), ← zpow_add₀ (by norm_num)]
    congr 1
    omega
  rw [signedUnits]
  cases negative
  · simp [mul_assoc, power]
  · simp [mul_assoc, power]

theorem compare?_eq (left right : Binary64) (isLeft : left ≠ .nan) (isRight : right ≠ .nan) :
    compare? left right = some (comparePlaces left right) := by
  match left, right with
  | .infinite negative, .infinite negative' => cases negative <;> cases negative' <;> rfl
  | .infinite negative, .finite _ _ _ => cases negative <;> rfl
  | .finite _ _ _, .infinite negative => cases negative <;> rfl
  | .finite negative mantissa exponent, .finite negative' mantissa' exponent' =>
    have mono : StrictMono fun number : ℤ => (number : ℚ) * 2 ^ min exponent exponent' := by
      intro number number' less
      have cast : (number : ℚ) < number' := Int.cast_lt.2 less
      exact mul_lt_mul_of_pos_right cast (zpow_pos (by norm_num) _)
    -- Both numbers are counted in units of the smaller exponent.
    have units := compare_strictMono mono
      (signedUnits negative mantissa exponent (min exponent exponent'))
      (signedUnits negative' mantissa' exponent' (min exponent exponent'))
    rw [signedUnits_mul negative mantissa (min_le_left _ _),
      signedUnits_mul negative' mantissa' (min_le_right _ _)] at units
    simp [compare?, comparePlaces, compareLex, compareOn, side, finitePart, ← units]

end Binary64

def nullsFirst {α : Type} (order : α → α → Ordering) : Option α → Option α → Ordering
  | none, none => .eq
  | none, some _ => .lt
  | some _, none => .gt
  | some left, some right => order left right

section NullsFirst

variable {α : Type} {order : α → α → Ordering} [TransCmp order]

instance : OrientedCmp (nullsFirst order) where
  eq_swap := by
    rintro (_ | left) (_ | right)
    · rfl
    · rfl
    · rfl
    · exact (OrientedCmp.eq_swap : order left right = _)

instance : TransCmp (nullsFirst order) where
  isLE_trans := by
    rintro (_ | left) (_ | middle) (_ | right) first second
    case some.some.some =>
      have trans_ : (order left right).isLE := TransCmp.isLE_trans first second
      exact trans_
    all_goals first | rfl | contradiction

theorem transCmp_comap {β : Type} (place : β → α) :
    TransCmp fun left right => order (place left) (place right) where
  eq_swap := OrientedCmp.eq_swap
  isLE_trans := TransCmp.isLE_trans

theorem transCmp_swap : TransCmp fun left right => (order left right).swap := by
  have swapped : (fun left right => (order left right).swap) = fun left right => order right left := by
    funext left right
    exact OrientedCmp.eq_swap.symm
  rw [swapped]
  exact TransCmp.opposite

end NullsFirst

namespace Value

/-- A value of a scalar kind. No NaN is one, since it is not comparable with itself. -/
inductive IsOfKind : ScalarKind → Value → Prop where
  | boolean (value : Bool) : IsOfKind .boolean (.bool value)
  | int32 (value : Int) : IsOfKind .int32 (.int value)
  | int64 (value : Int) : IsOfKind .int64 (.int value)
  | double {value : Binary64} (comparable : value ≠ .nan) : IsOfKind .double (.float value)
  | decimal (value : Decimal) : IsOfKind .decimal (.decimal value)
  | string (value : String) : IsOfKind .string (.string value)
  | uuid (value : Uuid) : IsOfKind .uuid (.uuid value)
  | dateTime (value : Timestamp) : IsOfKind .dateTime (.dateTime value)
  | date (value : Date) : IsOfKind .date (.date value)
  | time (value : TimeOfDay) : IsOfKind .time (.time value)
  | enumeration (name : String) : IsOfKind .enumeration (.enumeration name)

def MayBeOfKind (kind : ScalarKind) (value : Value) : Prop :=
  value = .null ∨ IsOfKind kind value

/-- The values that are compared by one measure. What is in no order with anything is a family, too. -/
inductive Family where
  | truth
  | exact
  | float
  | text
  | uuid
  | instant
  | date
  | time
  | unordered
  deriving DecidableEq

inductive IsOfFamily : Family → Value → Prop where
  | bool (value : Bool) : IsOfFamily .truth (.bool value)
  | int (value : Int) : IsOfFamily .exact (.int value)
  | decimal (value : Decimal) : IsOfFamily .exact (.decimal value)
  | float {value : Binary64} (comparable : value ≠ .nan) : IsOfFamily .float (.float value)
  | string (value : String) : IsOfFamily .text (.string value)
  | enumeration (name : String) : IsOfFamily .text (.enumeration name)
  | uuid (value : Uuid) : IsOfFamily .uuid (.uuid value)
  | dateTime (value : Timestamp) : IsOfFamily .instant (.dateTime value)
  | date (value : Date) : IsOfFamily .date (.date value)
  | time (value : TimeOfDay) : IsOfFamily .time (.time value)
  | nan : IsOfFamily .unordered (.float .nan)
  | record (typeName : String) (fields : List (String × Value)) :
      IsOfFamily .unordered (.record typeName fields)
  | list (items : List Value) : IsOfFamily .unordered (.list items)

def MayBeOfFamily (family : Family) (value : Value) : Prop :=
  value = .null ∨ IsOfFamily family value

variable {kind : ScalarKind} {family : Family} {value left right : Value}

theorem IsOfFamily.present (isOfFamily : IsOfFamily family value) : value ≠ .null := by
  cases isOfFamily <;> exact Value.noConfusion

theorem exists_family (present : value ≠ .null) : ∃ family, IsOfFamily family value := by
  cases value with
  | null => exact absurd rfl present
  | bool value => exact ⟨_, .bool value⟩
  | int value => exact ⟨_, .int value⟩
  | float value =>
    by_cases comparable : value = .nan
    · exact ⟨_, comparable ▸ IsOfFamily.nan⟩
    · exact ⟨_, .float comparable⟩
  | decimal value => exact ⟨_, .decimal value⟩
  | string value => exact ⟨_, .string value⟩
  | uuid value => exact ⟨_, .uuid value⟩
  | dateTime value => exact ⟨_, .dateTime value⟩
  | date value => exact ⟨_, .date value⟩
  | time value => exact ⟨_, .time value⟩
  | enumeration name => exact ⟨_, .enumeration name⟩
  | record typeName fields => exact ⟨_, .record typeName fields⟩
  | list items => exact ⟨_, .list items⟩

theorem sortOrder_of_present (isLeft : left ≠ .null) (isRight : right ≠ .null) :
    left.sortOrder right = (compare? left right).getD .eq := by
  unfold sortOrder
  split <;> simp_all

theorem exists_order_of_place {α : Type} (order : α → α → Ordering) [TransCmp order]
    (place : Value → Option α) (null_ : place .null = none)
    (compared : ∀ {left right}, IsOfFamily family left → IsOfFamily family right →
      ∃ first second, place left = some first ∧ place right = some second ∧
        (compare? left right).getD .eq = order first second) :
    ∃ order : Value → Value → Ordering, TransCmp order ∧
      ∀ left right, MayBeOfFamily family left → MayBeOfFamily family right →
        left.sortOrder right = order left right := by
  refine ⟨fun left right => nullsFirst order (place left) (place right), transCmp_comap place, ?_⟩
  rintro left right (rfl | isLeft) (rfl | isRight) <;> dsimp only
  · simp [null_, nullsFirst, sortOrder]
  · obtain ⟨_, second, -, isSecond, -⟩ := compared isRight isRight
    rw [null_, isSecond, nullsFirst, sortOrder]
    exact isRight.present
  · obtain ⟨first, _, isFirst, -, -⟩ := compared isLeft isLeft
    rw [null_, isFirst, nullsFirst, sortOrder]
    exact isLeft.present
  · obtain ⟨first, second, isFirst, isSecond, same⟩ := compared isLeft isRight
    rw [sortOrder_of_present isLeft.present isRight.present, same, isFirst, isSecond]
    rfl

def asUuid? : Value → Option Uuid
  | .uuid value => some value
  | _ => none

def asTimestamp? : Value → Option Timestamp
  | .dateTime value => some value
  | _ => none

def asDate? : Value → Option Date
  | .date value => some value
  | _ => none

def asTime? : Value → Option TimeOfDay
  | .time value => some value
  | _ => none

def asRat? : Value → Option ℚ
  | .int value => some value
  | .decimal value => some value.toRat
  | _ => none

theorem compare?_exact (isLeft : IsOfFamily .exact left) (isRight : IsOfFamily .exact right) :
    ∃ first second, left.asRat? = some first ∧ right.asRat? = some second ∧
      compare? left right = some (compare first second) := by
  have whole (number : Int) : (Decimal.ofInt number).toRat = number := by
    simp [Decimal.toRat, Decimal.ofInt]
  cases isLeft with
  | int number =>
    cases isRight with
    | int number' =>
      exact ⟨_, _, rfl, rfl, congrArg some (compare_strictMono Int.cast_strictMono number number').symm⟩
    | decimal number' =>
      refine ⟨_, _, rfl, rfl, congrArg some ?_⟩
      rw [Decimal.compareValue_eq, whole]
  | decimal number =>
    cases isRight with
    | int number' =>
      refine ⟨_, _, rfl, rfl, congrArg some ?_⟩
      rw [Decimal.compareValue_eq, whole]
    | decimal number' => exact ⟨_, _, rfl, rfl, congrArg some (Decimal.compareValue_eq number number')⟩

theorem exists_order_of_family (family : Family) :
    ∃ order : Value → Value → Ordering, TransCmp order ∧
      ∀ left right, MayBeOfFamily family left → MayBeOfFamily family right →
        left.sortOrder right = order left right := by
  cases family with
  | truth =>
    refine exists_order_of_place (compareOn Bool.toNat) asBool? rfl ?_
    rintro _ _ ⟨⟩ ⟨⟩
    exact ⟨_, _, rfl, rfl, rfl⟩
  | exact =>
    refine exists_order_of_place compare asRat? rfl fun isLeft isRight => ?_
    obtain ⟨first, second, isFirst, isSecond, same⟩ := compare?_exact isLeft isRight
    exact ⟨first, second, isFirst, isSecond, by rw [same, Option.getD_some]⟩
  | float =>
    refine exists_order_of_place Binary64.comparePlaces asFloat? rfl ?_
    rintro _ _ first second
    cases first with | float isLeft =>
    cases second with | float isRight =>
    refine ⟨_, _, rfl, rfl, ?_⟩
    -- Without the values that are no numbers every two are comparable.
    exact congrArg (·.getD .eq) (Binary64.compare?_eq _ _ isLeft isRight)
  | text =>
    refine exists_order_of_place compare asText? rfl ?_
    rintro _ _ ⟨⟩ ⟨⟩ <;> exact ⟨_, _, rfl, rfl, rfl⟩
  | uuid =>
    refine exists_order_of_place (compareOn Uuid.bits) asUuid? rfl ?_
    rintro _ _ ⟨⟩ ⟨⟩
    exact ⟨_, _, rfl, rfl, rfl⟩
  | instant =>
    refine exists_order_of_place Timestamp.compareInstant asTimestamp? rfl ?_
    rintro _ _ ⟨⟩ ⟨⟩
    exact ⟨_, _, rfl, rfl, rfl⟩
  | date =>
    refine exists_order_of_place Date.compareDate asDate? rfl ?_
    rintro _ _ ⟨⟩ ⟨⟩
    exact ⟨_, _, rfl, rfl, rfl⟩
  | time =>
    refine exists_order_of_place TimeOfDay.compareTime asTime? rfl ?_
    rintro _ _ ⟨⟩ ⟨⟩
    exact ⟨_, _, rfl, rfl, rfl⟩
  | unordered =>
    -- Values without an order all stand at one place.
    refine exists_order_of_place (compareOn fun _ : Value => 0)
      (fun value => if value.isNull then none else some value) rfl ?_
    rintro _ _ ⟨⟩ ⟨⟩ <;> exact ⟨_, _, rfl, rfl, rfl⟩

def familyOf : ScalarKind → Family
  | .boolean => .truth
  | .int32 | .int64 | .decimal => .exact
  | .double => .float
  | .string | .enumeration => .text
  | .uuid => .uuid
  | .dateTime => .instant
  | .date => .date
  | .time => .time

theorem IsOfKind.isOfFamily (isOfKind : IsOfKind kind value) : IsOfFamily (familyOf kind) value := by
  cases isOfKind with
  | double comparable => exact .float comparable
  | _ => constructor

theorem exists_order (kind : ScalarKind) :
    ∃ order : Value → Value → Ordering, TransCmp order ∧
      ∀ left right, MayBeOfKind kind left → MayBeOfKind kind right →
        left.sortOrder right = order left right := by
  obtain ⟨order, isOrder, same⟩ := exists_order_of_family (familyOf kind)
  exact ⟨order, isOrder, fun left right isLeft isRight =>
    same left right (isLeft.imp_right IsOfKind.isOfFamily) (isRight.imp_right IsOfKind.isOfFamily)⟩

end Value

end QueryProjection
