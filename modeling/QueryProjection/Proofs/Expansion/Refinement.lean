import QueryProjection.Proofs.Expansion.Changes
import QueryProjection.Proofs.Mapping.Layers

set_option autoImplicit false

namespace QueryProjection.Refiner

open Outcome

variable (change : ExpansionStep → Expr → Outcome Expr)

mutual

theorem descend_constructFree (step : ExpansionStep) (rest : ExpansionSteps) (expr : Expr)
    (free : expr.ConstructFree) : descend change step rest expr = .ok expr := by
  match expr with
  | .source _ | .parameter _ | .constant _ _ => rfl
  | .member target _ _ =>
    simp only [descend, descend_constructFree step rest target free, ok_bind]
    rfl
  | .construct _ _ => exact free.elim
  | .lambda _ body =>
    simp only [descend, descend_constructFree step rest body free, ok_bind]
    rfl
  | .call _ arguments _ =>
    simp only [descend, descendAll_constructFree step rest arguments free, ok_bind]
    rfl
  | .binary _ left right =>
    simp only [descend, descend_constructFree step rest left free.1,
      descend_constructFree step rest right free.2, ok_bind]
    rfl
  | .negation operand =>
    simp only [descend, descend_constructFree step rest operand free, ok_bind]
    rfl
  | .conditional test whenTrue whenFalse _ =>
    simp only [descend, descend_constructFree step rest test free.1,
      descend_constructFree step rest whenTrue free.2.1,
      descend_constructFree step rest whenFalse free.2.2, ok_bind]
    rfl
  | .convert operand _ =>
    simp only [descend, descend_constructFree step rest operand free, ok_bind]
    rfl
  | .function _ arguments =>
    simp only [descend, descendAll_constructFree step rest arguments free, ok_bind]
    rfl

theorem descendAll_constructFree (step : ExpansionStep) (rest : ExpansionSteps)
    (exprs : List Expr) (free : Expr.AllConstructFree exprs) :
    descendAll change step rest exprs = .ok exprs := by
  match exprs with
  | [] => rfl
  | expr :: others =>
    simp only [descendAll, descend_constructFree step rest expr free.1,
      descendAll_constructFree step rest others free.2, ok_bind]
    rfl

end

section Obeys

variable {Place : Type} {rules : PlaceRules Place} {place : Place}

def ChangeObeys (rules : PlaceRules Place) (change : ExpansionStep → Expr → Outcome Expr) : Prop :=
  ∀ step value changed, change step value = .ok changed →
    ∀ place, rules.constructs place → value.Obeys rules place → changed.Obeys rules place

variable {change}

mutual

theorem descend_obeys (keeps : ChangeObeys rules change) (step : ExpansionStep)
    (rest : ExpansionSteps) (expr : Expr) {refined : Expr} {place : Place}
    (obeys : expr.Obeys rules place)
    (descended : descend change step rest expr = .ok refined) : refined.Obeys rules place := by
  match expr with
  | .source _ | .parameter _ | .constant _ _ =>
    simp only [descend, Except.ok.injEq] at descended
    exact descended ▸ obeys
  | .member target _ _ =>
    simp only [descend, bind_eq_ok, pure_eq_ok] at descended
    obtain ⟨inner, isInner, rfl⟩ := descended
    have kept := descend_obeys keeps step rest target obeys isInner
    exact kept
  | .construct ty bindings =>
    -- Only in a record of the parent type is the step followed; any other record is searched
    -- further.
    obtain ⟨constructs, obey⟩ := obeys
    simp only [descend] at descended
    split at descended
    next =>
      simp only [bind_eq_ok, pure_eq_ok] at descended
      obtain ⟨others, followed, rfl⟩ := descended
      exact ⟨constructs, followBindings_obey keeps step rest bindings constructs obey followed⟩
    next =>
      simp only [bind_eq_ok, pure_eq_ok] at descended
      obtain ⟨others, followed, rfl⟩ := descended
      exact ⟨constructs, descendBindings_obey keeps step rest bindings obey followed⟩
  | .lambda param body =>
    simp only [descend, bind_eq_ok, pure_eq_ok] at descended
    obtain ⟨inner, isInner, rfl⟩ := descended
    obtain ⟨inside, opens, inBody⟩ := obeys
    exact ⟨inside, opens, descend_obeys keeps step rest body inBody isInner⟩
  | .call _ arguments _ =>
    simp only [descend, bind_eq_ok, pure_eq_ok] at descended
    obtain ⟨inner, areInner, rfl⟩ := descended
    exact descendAll_obey keeps step rest arguments obeys areInner
  | .binary _ left right =>
    simp only [descend, bind_eq_ok, pure_eq_ok] at descended
    obtain ⟨first, isFirst, second, isSecond, rfl⟩ := descended
    exact ⟨descend_obeys keeps step rest left obeys.1 isFirst,
      descend_obeys keeps step rest right obeys.2 isSecond⟩
  | .negation operand =>
    simp only [descend, bind_eq_ok, pure_eq_ok] at descended
    obtain ⟨inner, isInner, rfl⟩ := descended
    have kept := descend_obeys keeps step rest operand obeys isInner
    exact kept
  | .conditional test whenTrue whenFalse _ =>
    simp only [descend, bind_eq_ok, pure_eq_ok] at descended
    obtain ⟨first, isFirst, second, isSecond, third, isThird, rfl⟩ := descended
    exact ⟨descend_obeys keeps step rest test obeys.1 isFirst,
      descend_obeys keeps step rest whenTrue obeys.2.1 isSecond,
      descend_obeys keeps step rest whenFalse obeys.2.2 isThird⟩
  | .convert operand _ =>
    simp only [descend, bind_eq_ok, pure_eq_ok] at descended
    obtain ⟨inner, isInner, rfl⟩ := descended
    have kept := descend_obeys keeps step rest operand obeys isInner
    exact kept
  | .function _ arguments =>
    simp only [descend, bind_eq_ok, pure_eq_ok] at descended
    obtain ⟨inner, areInner, rfl⟩ := descended
    exact descendAll_obey keeps step rest arguments obeys areInner
termination_by structural expr

theorem descendAll_obey (keeps : ChangeObeys rules change) (step : ExpansionStep)
    (rest : ExpansionSteps) (exprs : List Expr) {refined : List Expr} {place : Place}
    (obey : Expr.AllObey rules place exprs)
    (descended : descendAll change step rest exprs = .ok refined) :
    Expr.AllObey rules place refined := by
  match exprs with
  | [] =>
    simp only [descendAll, Except.ok.injEq] at descended
    exact descended ▸ trivial
  | expr :: others =>
    simp only [descendAll, bind_eq_ok, pure_eq_ok] at descended
    obtain ⟨first, isFirst, later, areLater, rfl⟩ := descended
    exact ⟨descend_obeys keeps step rest expr obey.1 isFirst,
      descendAll_obey keeps step rest others obey.2 areLater⟩
termination_by structural exprs

theorem descendBindings_obey (keeps : ChangeObeys rules change) (step : ExpansionStep)
    (rest : ExpansionSteps) (bindings : List (String × Expr)) {refined : List (String × Expr)}
    {place : Place} (obey : Expr.BindingsObey rules place bindings)
    (descended : descendBindings change step rest bindings = .ok refined) :
    Expr.BindingsObey rules place refined := by
  match bindings with
  | [] =>
    simp only [descendBindings, Except.ok.injEq] at descended
    exact descended ▸ trivial
  | (name, value) :: others =>
    simp only [descendBindings, bind_eq_ok, pure_eq_ok] at descended
    obtain ⟨first, isFirst, later, areLater, rfl⟩ := descended
    exact ⟨descend_obeys keeps step rest value obey.1 isFirst,
      descendBindings_obey keeps step rest others obey.2 areLater⟩
termination_by structural bindings

theorem followBindings_obey (keeps : ChangeObeys rules change) (step : ExpansionStep)
    (rest : ExpansionSteps) (bindings : List (String × Expr)) {refined : List (String × Expr)}
    {place : Place} (constructs : rules.constructs place)
    (obey : Expr.BindingsObey rules place bindings)
    (followed : followBindings change step rest bindings = .ok refined) :
    Expr.BindingsObey rules place refined := by
  match bindings with
  | [] =>
    simp only [followBindings, Except.ok.injEq] at followed
    exact followed ▸ trivial
  | (name, value) :: others =>
    simp only [followBindings] at followed
    -- The binding is changed at the end of the steps, searched before it, or left as it is.
    obtain ⟨first, obeys, later, areLater, rfl⟩ : ∃ first, first.Obeys rules place ∧
        ∃ later, followBindings change step rest others = .ok later ∧
          (name, first) :: later = refined := by
      split at followed
      next =>
        match rest with
        | [] =>
          simp only [bind_eq_ok, pure_eq_ok] at followed
          obtain ⟨first, isFirst, later⟩ := followed
          exact ⟨first, keeps step value first isFirst place constructs obey.1, later⟩
        | next :: deeper =>
          simp only [bind_eq_ok, pure_eq_ok] at followed
          obtain ⟨first, isFirst, later⟩ := followed
          exact ⟨first, descend_obeys keeps next deeper value obey.1 isFirst, later⟩
      next =>
        simp only [ok_bind, bind_eq_ok, pure_eq_ok] at followed
        exact ⟨value, obey.1, followed⟩
    exact ⟨obeys, followBindings_obey keeps step rest others constructs obey.2 areLater⟩
termination_by structural bindings

end

def SequenceObeys (rules : PlaceRules Place) (change : SequenceChange) : Prop :=
  ∀ site sequence changed, change site sequence = .ok changed →
    ∀ place, rules.constructs place → sequence.Obeys rules place → changed.Obeys rules place

theorem LandsBelow.obeys {change : Expr → Outcome Expr} {value changed : Expr}
    (lands : LandsBelow change value changed)
    (keeps : ∀ sequence inner, change sequence = .ok inner → sequence.Obeys rules place →
      inner.Obeys rules place) (obeys : value.Obeys rules place) : changed.Obeys rules place := by
  induction lands with
  | here _ made => exact ⟨keeps _ _ made obeys.1, obeys.2⟩
  | around _ _ ih => exact ⟨ih obeys.1, obeys.2⟩

theorem LandsOn.obeys {change : SequenceChange} {element : String} {value changed : Expr}
    (lands : LandsOn change element value changed) (keeps : SequenceObeys rules change)
    (constructs : rules.constructs place) (obeys : value.Obeys rules place) :
    changed.Obeys rules place := by
  cases lands with
  | below _ lands => exact lands.obeys (fun _ _ made => keeps _ _ _ made place constructs) obeys
  | bare _ _ made => exact Expr.coercedTo_obeys (keeps _ _ _ made place constructs obeys) _

theorem Lands.obeys {change : SequenceChange} {element : String} {value changed : Expr}
    (lands : Lands change element value changed) (keeps : SequenceObeys rules change)
    (constructs : rules.constructs place) (obeys : value.Obeys rules place) :
    changed.Obeys rules place := by
  cases lands with
  | guarded lands => exact ⟨obeys.1, obeys.2.1, lands.obeys keeps constructs obeys.2.2⟩
  | unguarded _ lands => exact lands.obeys keeps constructs obeys

theorem filterChange_obeys (admits : rules.AdmitsElements) {refiner : Refiner} {predicate : Lambda}
    (onElement : predicate.OnElement) : SequenceObeys rules (refiner.filterChange predicate) := by
  intro site sequence changed made place constructs obeys
  obtain ⟨used, rfl, isUsed⟩ := filterChange_eq_ok made
  have usedOnElement : used.OnElement := by
    split at isUsed
    next => exact isUsed ▸ onElement
    next => exact Mapping.lambdaToSource_onElement onElement isUsed
  exact ⟨obeys, admits used usedOnElement place constructs, trivial⟩

end Obeys

theorem transformOf_eq_ok {refiner : Refiner} {element : String} {arrangement : Arrangement}
    {transform : Lambda} (bound : refiner.transformOf element arrangement = .ok transform) :
    ∃ levels, Binder.levels ⟨refiner.mapping.schema, element, refiner.context⟩
        arrangement.order = .ok levels ∧ OrderLevel.AreKeys levels ∧
      Arrangement.Fits arrangement.skip arrangement.top ∧
      transform = ⟨sequenceParameter element, Expr.arrangeCalls levels arrangement.skip
        arrangement.top (.parameter (sequenceParameter element))⟩ := by
  simp only [transformOf, bind_eq_ok, pure_eq_ok, Arrangement.applyTo_eq_ok] at bound
  obtain ⟨body, ⟨levels, areLevels, fits, rfl⟩, rfl⟩ := bound
  exact ⟨levels, areLevels, Binder.levels_areKeys areLevels, fits, rfl⟩

theorem arrangementChange_eq_ok {refiner : Refiner} {element : String} {levels : List OrderLevel}
    {skip top : Option Nat} (keys : OrderLevel.AreKeys levels) {site : RefinementSite}
    {sequence changed : Expr}
    (made : refiner.arrangementChange ⟨sequenceParameter element,
      Expr.arrangeCalls levels skip top (.parameter (sequenceParameter element))⟩ site sequence =
        .ok changed) :
    ∃ used : List OrderLevel, OrderLevel.AreKeys used ∧
      (if site = .model then used = levels else refiner.mapping.levelsToSource levels = .ok used) ∧
      Expr.Arranges used skip top
        (if site = .belowSelection then sequence else .apply .asQueryable [sequence]) changed := by
  have apart : elementName ≠ "q" := by decide
  cases site with
  | model =>
    simp only [arrangementChange, Except.ok.injEq] at made
    subst made
    exact ⟨levels, keys, rfl, Expr.arranges_applyTo keys apart _⟩
  | belowSelection | mapped =>
    simp only [arrangementChange, bind_eq_ok, pure_eq_ok, Mapping.lambdaToSource_arrangeCalls] at made
    obtain ⟨_, ⟨mapped, areMapped, rfl⟩, rfl⟩ := made
    have keysMapped := (Mapping.levelsToSource_spec keys areMapped).1
    exact ⟨mapped, keysMapped, by simpa using areMapped, Expr.arranges_applyTo keysMapped apart _⟩

section Obeys

variable {Place : Type} {rules : PlaceRules Place} {place : Place}

theorem arrangementChange_obeys (admits : rules.AdmitsElements) {refiner : Refiner}
    {element : String} {arrangement : Arrangement} {transform : Lambda}
    (bound : refiner.transformOf element arrangement = .ok transform) :
    SequenceObeys rules (refiner.arrangementChange transform) := by
  obtain ⟨levels, areLevels, keys, -, rfl⟩ := transformOf_eq_ok bound
  intro site sequence changed made place constructs obeys
  obtain ⟨used, -, areUsed, arranges⟩ := arrangementChange_eq_ok keys made
  have onElement : ∀ level ∈ used, level.key.OnElement := by
    have bound := Binder.levels_onElement areLevels
    split at areUsed
    next => exact areUsed ▸ bound
    next => exact Mapping.levelsToSource_onElement bound areUsed
  refine arranges.obeys (fun level isLevel => admits _ (onElement level isLevel) place constructs) ?_
  split
  next => exact obeys
  next => exact ⟨obeys, trivial⟩

theorem Asks.obeys (admits : rules.AdmitsElements) {refiner : Refiner} {kind : RefinementKind}
    {step : ExpansionStep} {element : String} {change : SequenceChange}
    (asks : refiner.Asks step element kind change) : SequenceObeys rules change := by
  cases asks with
  | filter _ bound => exact filterChange_obeys admits (Filter.bind_onElement bound)
  | arrangement _ bound => exact arrangementChange_obeys admits bound

theorem changeMember_obeys (admits : rules.AdmitsElements) (refiner : Refiner)
    (kind : RefinementKind) : ChangeObeys rules (refiner.changeMember kind) := by
  intro step value changed made place constructs obeys
  obtain ⟨element, change, -, asks, lands⟩ := lands_of_changeMember made
  exact lands.obeys (asks.obeys admits) constructs obeys

end Obeys

theorem applyOne_eq_ok {refiner : Refiner} {kind : RefinementKind} {expr refined : Expr}
    {steps : ExpansionSteps} (applied : refiner.applyOne kind expr steps = .ok refined) :
    ∃ step rest, steps = step :: rest ∧
      descend (refiner.changeMember kind) step rest expr = .ok refined := by
  unfold applyOne at applied
  split at applied
  next => simp [malformed] at applied
  next step rest =>
    split at applied
    next => exact ⟨step, rest, rfl, applied⟩
    next => simp [malformed] at applied

theorem carries_of_applyOne {refiner : Refiner} {kind : RefinementKind} {expr refined : Expr}
    {steps : ExpansionSteps} (applied : refiner.applyOne kind expr steps = .ok refined) :
    ∃ last, steps.getLast? = some last ∧ carries kind last = true := by
  unfold applyOne at applied
  split at applied
  next => simp [malformed] at applied
  next step rest =>
    split at applied
    next carries_ => simpa [Option.getD_eq_iff] using carries_
    next => simp [malformed] at applied

theorem applyAll_obeys {Place : Type} {rules : PlaceRules Place} {place : Place}
    (admits : rules.AdmitsElements) {refiner : Refiner} {kind : RefinementKind} {expr refined : Expr}
    {lists : List ExpansionSteps} (obeys : expr.Obeys rules place)
    (applied : refiner.applyAll kind expr lists = .ok refined) : refined.Obeys rules place := by
  refine foldlM_preserves (fun expr => expr.Obeys rules place) ?_ obeys applied
  intro steps _ before after obeys applied
  obtain ⟨step, rest, rfl, descended⟩ := applyOne_eq_ok applied
  exact descend_obeys (changeMember_obeys admits refiner kind) step rest before obeys descended

theorem applyAll_scopedIn {refiner : Refiner} {kind : RefinementKind} {expr refined : Expr}
    {lists : List ExpansionSteps} {declared : Declared} (inScope : expr.ScopedIn declared)
    (applied : refiner.applyAll kind expr lists = .ok refined) : refined.ScopedIn declared := by
  rw [← Expr.obeys_scopeRules] at inScope ⊢
  exact applyAll_obeys scopeRules_admitsElements inScope applied

section Select

variable {refiner : Refiner} {kind : RefinementKind} {sequence : Expr}

theorem applyOne_select (free : sequence.ConstructFree) (param : Parameter) (body : Expr)
    (ty : DataType) (steps : ExpansionSteps) :
    refiner.applyOne kind (.call .select [sequence, .lambda param body] ty) steps = (do
      let refined ← refiner.applyOne kind body steps
      return .call .select [sequence, .lambda param refined] ty) := by
  cases steps with
  | nil => rfl
  | cons step rest =>
    simp only [applyOne]
    split
    next =>
      simp only [descend, descendAll, descend_constructFree _ step rest sequence free, ok_bind]
      cases descend (refiner.changeMember kind) step rest body <;> rfl
    next => rfl

theorem applyAll_select (free : sequence.ConstructFree) (param : Parameter) (body : Expr)
    (ty : DataType) (lists : List ExpansionSteps) :
    refiner.applyAll kind (.call .select [sequence, .lambda param body] ty) lists = (do
      let refined ← refiner.applyAll kind body lists
      return .call .select [sequence, .lambda param refined] ty) := by
  unfold applyAll
  induction lists generalizing body with
  | nil => rfl
  | cons steps rest ih =>
    simp only [List.foldlM_cons, applyOne_select free]
    cases refiner.applyOne kind body steps with
    | error cause => rfl
    | ok refined => exact ih refined

end Select

end QueryProjection.Refiner
