import QueryProjection.Proofs.Value.Order

set_option autoImplicit false

namespace QueryProjection

open Std (OrientedCmp TransCmp)

theorem Binary64.compare?_swap (left right : Binary64) :
    compare? right left = (compare? left right).map Ordering.swap := by
  by_cases isLeft : left = .nan
  · subst isLeft
    cases right <;> rfl
  by_cases isRight : right = .nan
  · subst isRight
    cases left <;> rfl
  rw [compare?_eq right left isRight isLeft, compare?_eq left right isLeft isRight, Option.map_some]
  exact congrArg some OrientedCmp.eq_swap

namespace Value

variable {family family' : Family} {value left middle right : Value}

theorem compareFloats_swap (left right : Value) :
    compareFloats right left = (compareFloats left right).map Ordering.swap := by
  unfold compareFloats
  cases left.asFloat? <;> cases right.asFloat? <;> first | rfl | exact Binary64.compare?_swap _ _

theorem compare?_swap (left right : Value) :
    compare? right left = (compare? left right).map Ordering.swap := by
  have float (number : Binary64) (other : Value) :
      compare? other (.float number) = compareFloats other (.float number) ∧
        compare? (.float number) other = compareFloats (.float number) other := by
    cases other <;> exact ⟨rfl, rfl⟩
  have ordered {α : Type} (order : α → α → Ordering) [OrientedCmp order] (first second : α) :
      some (order second first) = (some (order first second)).map Ordering.swap :=
    congrArg some OrientedCmp.eq_swap
  cases left with
  | float number =>
    rw [(float number right).1, (float number right).2]
    exact compareFloats_swap _ _
  | _ =>
    cases right with
    | float number =>
      rw [(float number _).1, (float number _).2]
      exact compareFloats_swap _ _
    | _ => first | rfl | exact ordered _ _ _

theorem sortOrder_swap (left right : Value) :
    right.sortOrder left = (left.sortOrder right).swap := by
  by_cases isLeft : left = .null
  · subst isLeft
    cases right <;> rfl
  by_cases isRight : right = .null
  · subst isRight
    cases left <;> rfl
  rw [sortOrder_of_present isRight isLeft, sortOrder_of_present isLeft isRight,
    compare?_swap left right]
  cases compare? left right <;> rfl

theorem sortOrder_self (value : Value) : value.sortOrder value = .eq := by
  have turned := value.sortOrder_swap value
  cases same : value.sortOrder value <;> simp_all

theorem sortOrder_trans_of_family (isLeft : MayBeOfFamily family left)
    (isMiddle : MayBeOfFamily family middle) (isRight : MayBeOfFamily family right)
    (first : left.sortOrder middle ≠ .gt) (second : middle.sortOrder right ≠ .gt) :
    left.sortOrder right ≠ .gt := by
  obtain ⟨order, isOrder, same⟩ := exists_order_of_family family
  rw [same left middle isLeft isMiddle] at first
  rw [same middle right isMiddle isRight] at second
  rw [same left right isLeft isRight]
  exact Ordering.ne_gt_iff_isLE.2
    (TransCmp.isLE_trans (Ordering.ne_gt_iff_isLE.1 first) (Ordering.ne_gt_iff_isLE.1 second))

def Within (families : Set Family) (value : Value) : Prop :=
  ∀ family, IsOfFamily family value → family ∈ families

def roundedBound : Int := 2 ^ 53

def Family.sample : Family → Value × Value
  | .truth => (.bool false, .bool true)
  | .exact => (.int roundedBound, .int (roundedBound + 1))
  | .float => (.float (.ofInt roundedBound), .float (.ofInt (roundedBound + 2)))
  | .text => (.string "", .string "a")
  | .uuid => (.uuid ⟨0⟩, .uuid ⟨1⟩)
  | .instant => (.dateTime ⟨0, 0, 0⟩, .dateTime ⟨1, 0, 0⟩)
  | .date => (.date ⟨1970, 1, 1⟩, .date ⟨1970, 1, 2⟩)
  | .time => (.time ⟨0, 0⟩, .time ⟨1, 0⟩)
  | .unordered => (.list [], .list [])

theorem Family.sample_isOfFamily (family : Family) :
    IsOfFamily family family.sample.1 ∧ IsOfFamily family family.sample.2 := by
  cases family with
  | float => exact ⟨.float (by decide +kernel), .float (by decide +kernel)⟩
  | _ => exact ⟨by constructor, by constructor⟩

def Family.Breaks (family family' : Family) : Prop :=
  family.sample.2.sortOrder family'.sample.1 = .eq ∧
    family'.sample.1.sortOrder family.sample.1 = .eq ∧
    family.sample.2.sortOrder family.sample.1 = .gt

instance (family family' : Family) : Decidable (family.Breaks family') :=
  inferInstanceAs (Decidable (_ ∧ _ ∧ _))

theorem Family.breaks_of_ne (different : family ≠ family') :
    family.Breaks family' ∨ family'.Breaks family := by
  cases family <;> cases family' <;> first | contradiction | decide +kernel

theorem IsOfFamily.unique (isOfFamily : IsOfFamily family value)
    (isOfFamily' : IsOfFamily family' value) : family = family' := by
  cases isOfFamily <;> cases isOfFamily' <;> first | rfl | contradiction

theorem Family.within_sample {families : Set Family} (member : family ∈ families) :
    Within families family.sample.1 ∧ Within families family.sample.2 := by
  obtain ⟨lesser, greater⟩ := family.sample_isOfFamily
  exact ⟨fun _ other => lesser.unique other ▸ member, fun _ other => greater.unique other ▸ member⟩

/-- The order is transitive among null and the values of the families. -/
def TransWithin (families : Set Family) : Prop :=
  ∀ left middle right, Within families left → Within families middle → Within families right →
    left.sortOrder middle ≠ .gt → middle.sortOrder right ≠ .gt → left.sortOrder right ≠ .gt

theorem TransWithin.not_breaks {families : Set Family} (isTrans : TransWithin families)
    (member : family ∈ families) (member' : family' ∈ families) : ¬family.Breaks family' := by
  rintro ⟨first, second, turned⟩
  obtain ⟨lesser, greater⟩ := Family.within_sample member
  obtain ⟨between, -⟩ := Family.within_sample member'
  exact isTrans _ _ _ greater between lesser (by simp [first]) (by simp [second]) turned

theorem transWithin_of_subsingleton {families : Set Family} (one : families.Subsingleton) :
    TransWithin families := by
  intro left middle right isLeft isMiddle isRight first second
  by_cases empty : families = ∅
  · subst empty
    have isNull {value : Value} (within : Within ∅ value) : value = .null := by
      by_contra present
      obtain ⟨family, isOfFamily⟩ := exists_family present
      exact within family isOfFamily
    rw [isNull isLeft, isNull isRight]
    simp [sortOrder]
  · obtain ⟨family, member⟩ := Set.nonempty_iff_ne_empty.2 empty
    have mayBe {value : Value} (within : Within families value) : MayBeOfFamily family value := by
      refine or_iff_not_imp_left.2 fun present => ?_
      obtain ⟨family', isOfFamily⟩ := exists_family present
      exact one (within family' isOfFamily) member ▸ isOfFamily
    exact sortOrder_trans_of_family (mayBe isLeft) (mayBe isMiddle) (mayBe isRight) first second

/-- Every value counts as equal to itself, and the order of two values turns with them. It is
transitive exactly as long as all values that are not null belong to one family. -/
theorem sortOrder_transitive_iff (families : Set Family) :
    (∀ value : Value, value.sortOrder value = .eq) ∧
      (∀ left right : Value, right.sortOrder left = (left.sortOrder right).swap) ∧
      (TransWithin families ↔ families.Subsingleton) := by
  refine ⟨sortOrder_self, sortOrder_swap, fun isTrans => ?_, transWithin_of_subsingleton⟩
  intro family member family' member'
  by_contra different
  rcases Family.breaks_of_ne different with breaks | breaks
  · exact isTrans.not_breaks member member' breaks
  · exact isTrans.not_breaks member' member breaks

theorem sortOrder_transitive_exact :
    TransWithin {.exact} ∧ ¬TransWithin {.exact, .float} :=
  ⟨(sortOrder_transitive_iff _).2.2.2 Set.subsingleton_singleton,
    fun isTrans => nomatch (sortOrder_transitive_iff _).2.2.1 isTrans
      (.inl rfl : Family.exact ∈ ({.exact, .float} : Set Family)) (.inr rfl)⟩

/-- A string between two integers counts as equal to both. -/
theorem not_sortOrder_trans :
    ¬∀ left middle right : Value, left.sortOrder middle ≠ .gt → middle.sortOrder right ≠ .gt →
        left.sortOrder right ≠ .gt :=
  fun isTrans => isTrans (.int 2) (.string "x") (.int 1) (by decide) (by decide) (by decide)

end Value

end QueryProjection
