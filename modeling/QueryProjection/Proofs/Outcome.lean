import Mathlib.Data.List.Forall2
import QueryProjection.Error

set_option autoImplicit false

namespace QueryProjection.Outcome

variable {α β γ δ : Type}

theorem bind_eq_ok {outcome : Outcome α} {next : α → Outcome β} {result : β} :
    (outcome >>= next) = .ok result ↔ ∃ value, outcome = .ok value ∧ next value = .ok result := by
  cases outcome <;> simp [bind, Except.bind]

theorem pure_eq_ok {value result : α} : (pure value : Outcome α) = .ok result ↔ value = result := by
  simp [pure, Except.pure]

theorem exists_of_toOption_any {ε : Type} (outcome : Except ε α) (test : α → Bool)
    (passes : outcome.toOption.any test = true) : ∃ value, outcome = .ok value ∧ test value = true := by
  cases outcome with
  | ok value => exact ⟨value, rfl, by simpa [Except.toOption] using passes⟩
  | error cause => simp [Except.toOption] at passes

theorem exists_of_forall₂ {relation : α → β → Prop} {items : List α} {others : List β}
    (each : List.Forall₂ relation items others) {item : α} (member : item ∈ items) :
    ∃ other ∈ others, relation item other := by
  induction each with
  | nil => simp at member
  | cons first _ ih =>
    rcases List.mem_cons.1 member with rfl | later
    · exact ⟨_, List.mem_cons_self, first⟩
    · obtain ⟨other, isOther, related⟩ := ih later
      exact ⟨other, List.mem_cons_of_mem _ isOther, related⟩

theorem map_eq_of_forall₂ {first : α → γ} {second : β → γ} {items : List α} {others : List β}
    (each : List.Forall₂ (fun item other => first item = second other) items others) :
    items.map first = others.map second := by
  rwa [← List.forall₂_eq_eq_eq, List.forall₂_map_left_iff, List.forall₂_map_right_iff]

theorem forall₂_trans {relation : α → β → Prop} {relation' : β → γ → Prop}
    {relation'' : α → γ → Prop} {first : List α} {second : List β} {third : List γ}
    (both : ∀ a b c, relation a b → relation' b c → relation'' a c)
    (left : List.Forall₂ relation first second) (right : List.Forall₂ relation' second third) :
    List.Forall₂ relation'' first third := by
  induction left generalizing third with
  | nil =>
    cases right
    exact .nil
  | cons related _ ih =>
    cases right with
    | cons related' later => exact .cons (both _ _ _ related related') (ih later)

@[simp] theorem ok_bind (value : α) (next : α → Outcome β) :
    ((Except.ok value : Outcome α) >>= next) = next value := rfl

@[simp] theorem error_bind (cause : Error) (next : α → Outcome β) :
    ((Except.error cause : Outcome α) >>= next) = .error cause := rfl

@[simp] theorem bind_ok (outcome : Outcome α) : (outcome >>= Except.ok) = outcome := by
  cases outcome <;> rfl

theorem bind_congr_of_ok {outcome : Outcome α} {next next' : α → Outcome β}
    (same : ∀ value, outcome = .ok value → next value = next' value) :
    (outcome >>= next) = (outcome >>= next') := by
  cases outcome with
  | ok value => exact same value rfl
  | error cause => rfl

theorem foldlM_congr {step step' : β → α → Outcome β} {items : List α} {first : β}
    (same : ∀ item ∈ items, ∀ before, step before item = step' before item) :
    items.foldlM step first = items.foldlM step' first := by
  induction items generalizing first with
  | nil => rfl
  | cons item rest ih =>
    obtain ⟨sameFirst, sameRest⟩ := List.forall_mem_cons.1 same
    rw [List.foldlM_cons, List.foldlM_cons, sameFirst]
    exact bind_congr fun next => ih sameRest

theorem foldlM_preserves {step : β → α → Outcome β} {items : List α} {first last : β}
    (holds : β → Prop)
    (keeps : ∀ item ∈ items, ∀ before after, holds before → step before item = .ok after → holds after)
    (start : holds first) (folded : items.foldlM step first = .ok last) : holds last := by
  induction items generalizing first with
  | nil =>
    simp only [List.foldlM_nil, pure_eq_ok] at folded
    exact folded ▸ start
  | cons item rest ih =>
    simp only [List.foldlM_cons, bind_eq_ok] at folded
    obtain ⟨next, stepped, folded⟩ := folded
    obtain ⟨keepsFirst, keepsRest⟩ := List.forall_mem_cons.1 keeps
    exact ih keepsRest (keepsFirst first next start stepped) folded

theorem mapM_eq_ok {step : α → Outcome β} {items : List α} {results : List β} :
    items.mapM step = .ok results ↔
      List.Forall₂ (fun item result => step item = .ok result) items results := by
  induction items generalizing results with
  | nil => rw [List.mapM_nil, pure_eq_ok, List.forall₂_nil_left_iff, eq_comm]
  | cons item rest ih =>
    simp only [List.mapM_cons, bind_eq_ok, pure_eq_ok, List.forall₂_cons_left_iff, ih]
    constructor
    · rintro ⟨result, isResult, others, areOthers, rfl⟩
      exact ⟨result, others, isResult, areOthers, rfl⟩
    · rintro ⟨result, others, isResult, areOthers, rfl⟩
      exact ⟨result, isResult, others, areOthers, rfl⟩

theorem mapM_exists_iff {step : α → Outcome β} {items : List α} :
    (∃ results, items.mapM step = .ok results) ↔ ∀ item ∈ items, ∃ result, step item = .ok result := by
  simp only [mapM_eq_ok]
  constructor
  · rintro ⟨results, each⟩ item isItem
    obtain ⟨result, -, isResult⟩ := exists_of_forall₂ each isItem
    exact ⟨result, isResult⟩
  · intro each
    induction items with
    | nil => exact ⟨[], .nil⟩
    | cons item rest ih =>
      obtain ⟨first, later⟩ := List.forall_mem_cons.1 each
      obtain ⟨result, isResult⟩ := first
      obtain ⟨results, areResults⟩ := ih later
      exact ⟨result :: results, .cons isResult areResults⟩

theorem mapM_congr_of_reached {step step' : α → Outcome β} {items : List α}
    (same : ∀ before item after, items = before ++ item :: after →
      (∀ earlier ∈ before, ∃ result, step earlier = .ok result) → step item = step' item) :
    items.mapM step = items.mapM step' := by
  induction items with
  | nil => rfl
  | cons item rest ih =>
    rw [List.mapM_cons, List.mapM_cons, ← same [] item rest rfl (by simp)]
    refine bind_congr_of_ok fun first isFirst => ?_
    rw [ih fun before later after split reached => ?_]
    refine same (item :: before) later after (by rw [split, List.cons_append]) ?_
    exact List.forall_mem_cons.2 ⟨⟨first, isFirst⟩, reached⟩

/-- Both computations fail, whatever they report, or their results are related. -/
inductive Related (relation : α → β → Prop) : Outcome α → Outcome β → Prop where
  | ok {left : α} {right : β} (related : relation left right) :
      Related relation (.ok left) (.ok right)
  | failed (cause cause' : Error) : Related relation (.error cause) (.error cause')

/-- Both computations fail, or both have the same result. -/
abbrev Agree (left right : Outcome α) : Prop := Related Eq left right

theorem Related.mono {relation relation' : α → β → Prop} {left : Outcome α} {right : Outcome β}
    (related : Related relation left right) (weaker : ∀ a b, relation a b → relation' a b) :
    Related relation' left right := by
  cases related with
  | ok h => exact .ok (weaker _ _ h)
  | failed cause cause' => exact .failed cause cause'

theorem Related.bind {relation : α → β → Prop} {relation' : γ → δ → Prop}
    {left : Outcome α} {right : Outcome β} {next : α → Outcome γ} {next' : β → Outcome δ}
    (first : Related relation left right)
    (then_ : ∀ a b, relation a b → Related relation' (next a) (next' b)) :
    Related relation' (left >>= next) (right >>= next') := by
  cases first with
  | ok h => exact then_ _ _ h
  | failed cause cause' => exact .failed cause cause'

theorem Related.and_ok {relation : α → β → Prop} {left : Outcome α} {right : Outcome β}
    (related : Related relation left right) :
    Related (fun a b => relation a b ∧ left = .ok a) left right := by
  cases related with
  | ok h => exact .ok ⟨h, rfl⟩
  | failed cause cause' => exact .failed cause cause'

theorem Related.exists_iff {relation : α → β → Prop} {left : Outcome α} {right : Outcome β}
    (related : Related relation left right) :
    (∃ a, left = .ok a) ↔ ∃ b, right = .ok b := by
  cases related with
  | ok h => exact ⟨fun _ => ⟨_, rfl⟩, fun _ => ⟨_, rfl⟩⟩
  | failed cause cause' => simp

theorem Agree.bind {left right : Outcome α} {next next' : α → Outcome β}
    (first : Agree left right) (then_ : ∀ a, Agree (next a) (next' a)) :
    Agree (left >>= next) (right >>= next') :=
  Related.bind first fun a _ same => same ▸ then_ a

theorem Agree.refl (outcome : Outcome α) : Agree outcome outcome := by
  cases outcome with
  | ok value => exact .ok rfl
  | error cause => exact .failed cause cause

theorem Agree.symm {left right : Outcome α} (agree : Agree left right) : Agree right left := by
  cases agree with
  | ok same => exact .ok same.symm
  | failed cause cause' => exact .failed cause' cause

theorem Agree.trans {left middle right : Outcome α} (first : Agree left middle)
    (second : Agree middle right) : Agree left right := by
  cases first with
  | ok same => exact same ▸ second
  | failed cause cause' =>
      cases second with
      | failed _ cause'' => exact .failed cause cause''

theorem Agree.of_eq {left right : Outcome α} (same : left = right) : Agree left right :=
  same ▸ .refl left

theorem Agree.eq_ok_iff {left right : Outcome α} (agree : Agree left right) (value : α) :
    left = .ok value ↔ right = .ok value := by
  cases agree with
  | ok same => simp [same]
  | failed cause cause' => simp

inductive Follows (exact : Prop) (relation : α → β → Prop) : Outcome α → Outcome β → Prop where
  | ok {left : α} {right : β} (related : relation left right) :
      Follows exact relation (.ok left) (.ok right)
  | failed (cause cause' : Error) : Follows exact relation (.error cause) (.error cause')
  | recovered (inexact : ¬ exact) (cause : Error) (right : β) :
      Follows exact relation (.error cause) (.ok right)

section Follows

variable {exact : Prop} {relation : α → β → Prop} {left : Outcome α} {right : Outcome β}

theorem Related.follows (related : Related relation left right) : Follows exact relation left right := by
  cases related with
  | ok h => exact .ok h
  | failed cause cause' => exact .failed cause cause'

theorem Follows.related (follows : Follows exact relation left right) (isExact : exact) :
    Related relation left right := by
  cases follows with
  | ok h => exact .ok h
  | failed cause cause' => exact .failed cause cause'
  | recovered inexact => exact absurd isExact inexact

theorem Follows.eq_ok {left right : Outcome α} (follows : Follows exact Eq left right) {result : α}
    (isResult : left = .ok result) : right = .ok result := by
  cases follows with
  | ok same => rwa [← same]
  | failed cause cause' => cases isResult
  | recovered inexact cause result' => cases isResult

theorem Follows.of_error {cause : Error} (fails : exact → ∃ cause', right = .error cause') :
    Follows exact relation (.error cause) right := by
  cases right with
  | ok result =>
    refine .recovered (fun isExact => ?_) cause result
    obtain ⟨cause', failed⟩ := fails isExact
    cases failed
  | error cause' => exact .failed cause cause'

theorem Follows.bind {relation' : γ → δ → Prop} {next : α → Outcome γ} {next' : β → Outcome δ}
    (first : Follows exact relation left right)
    (then_ : ∀ a b, relation a b → Follows exact relation' (next a) (next' b)) :
    Follows exact relation' (left >>= next) (right >>= next') := by
  cases first with
  | ok h => exact then_ _ _ h
  | failed cause cause' => exact .failed cause cause'
  | recovered inexact cause result => exact .of_error fun isExact => absurd isExact inexact

theorem Follows.bind_same {left right : Outcome α} {next next' : α → Outcome β}
    (first : Follows exact Eq left right) (then_ : ∀ a, Follows exact Eq (next a) (next' a)) :
    Follows exact Eq (left >>= next) (right >>= next') :=
  first.bind fun a _ same => same ▸ then_ a

theorem Follows.refl (outcome : Outcome α) : Follows exact Eq outcome outcome :=
  (Agree.refl outcome).follows

end Follows

end QueryProjection.Outcome
