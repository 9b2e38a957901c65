import Mathlib.Data.List.Nodup
import QueryProjection.Proofs.Schema.Lookup

set_option autoImplicit false

namespace QueryProjection.Schema

variable {schema : Schema} {typeName name missing : String} {steps later : Nat}

def base? (schema : Schema) (name : String) : Option String :=
  (schema.find? name).bind TypeDecl.base

def baseAt (schema : Schema) : String → (steps : Nat) → Option String
  | name, 0 => some name
  | name, steps + 1 => (schema.base? name).bind fun base => schema.baseAt base steps

def Revisits (schema : Schema) (typeName : String) : Prop :=
  ∃ name first later, first < later ∧ schema.baseAt typeName first = some name ∧
    schema.baseAt typeName later = some name

def ReachesUnregistered (schema : Schema) (typeName missing : String) : Prop :=
  ∃ steps, schema.baseAt typeName steps = some missing ∧ schema.find? missing = none

theorem baseAt_add (reached : schema.baseAt typeName steps = some name) (later : Nat) :
    schema.baseAt typeName (steps + later) = schema.baseAt name later := by
  induction steps generalizing typeName with
  | zero =>
    cases reached
    rw [Nat.zero_add]
  | succ steps ih =>
    rw [Nat.succ_add]
    simp only [baseAt, Option.bind_eq_some_iff] at reached ⊢
    obtain ⟨base, isBase, reached⟩ := reached
    rw [isBase, Option.bind_some, ih reached]

theorem baseAt_none_of_le (ended : schema.baseAt typeName steps = none) (more : steps ≤ later) :
    schema.baseAt typeName later = none := by
  induction steps generalizing typeName later with
  | zero => simp [baseAt] at ended
  | succ steps ih =>
    obtain ⟨later, rfl⟩ : ∃ before, later = before + 1 := ⟨later - 1, by omega⟩
    simp only [baseAt, Option.bind_eq_none_iff] at ended ⊢
    exact fun base isBase => ih (ended base isBase) (by omega)

theorem Revisits.endless (revisits : schema.Revisits typeName) (steps : Nat) :
    ∃ name, schema.baseAt typeName steps = some name := by
  obtain ⟨name, first, later, less, isFirst, isLater⟩ := revisits
  -- From the name on, the walk repeats what lies between.
  have again (rounds : Nat) :
      schema.baseAt typeName (first + rounds * (later - first)) = some name := by
    induction rounds with
    | zero => simpa using isFirst
    | succ rounds ih =>
      have split : first + (rounds + 1) * (later - first) =
          first + rounds * (later - first) + (later - first) := by
        rw [Nat.add_mul, Nat.one_mul, Nat.add_assoc]
      have whole : first + (later - first) = later := by omega
      rw [split, baseAt_add ih, ← baseAt_add isFirst, whole]
      exact isLater
  have far : steps ≤ first + steps * (later - first) := by
    have : steps * 1 ≤ steps * (later - first) := Nat.mul_le_mul_left _ (by omega)
    omega
  refine Option.ne_none_iff_exists'.1 fun ended => ?_
  exact absurd ((again steps).symm.trans (baseAt_none_of_le ended far)) (by simp)

theorem name_of_find? {typeDecl : TypeDecl} (found : schema.find? name = some typeDecl) :
    typeDecl.name = name := by
  simpa using List.find?_some found

def EndsAt (schema : Schema) (passed : List String) (next : Option String) : ChainEnd → Prop
  | .root => next = none
  | .cycle => ∃ name ∈ passed, next = some name
  | .missing name => next = some name ∧ schema.find? name = none

structure Walked (schema : Schema) (seen : List String) (typeName : String)
    (chain : List TypeDecl) (ends : ChainEnd) : Prop where
  along : ∀ steps typeDecl, chain[steps]? = some typeDecl →
    schema.baseAt typeName steps = some typeDecl.name
  registered : ∀ typeDecl ∈ chain, schema.find? typeDecl.name = some typeDecl
  apart : (chain.map TypeDecl.name).Nodup
  new : ∀ typeDecl ∈ chain, typeDecl.name ∉ seen
  stops : schema.EndsAt (seen ++ chain.map TypeDecl.name)
    (schema.baseAt typeName chain.length) ends

theorem baseChain_walked {fuel : Nat} {seen : List String} (apart : seen.Nodup)
    (known : seen ⊆ schema.types.map TypeDecl.name)
    (enough : schema.types.length < fuel + seen.length) :
    schema.Walked seen typeName (schema.baseChain fuel seen typeName).1
      (schema.baseChain fuel seen typeName).2 := by
  induction fuel generalizing seen typeName with
  | zero =>
    -- The names that have been seen are registered and differ, so the fuel lasts for them.
    have most := length_le_of_registered apart known
    omega
  | succ fuel ih =>
    simp only [baseChain]
    split
    next again =>
      exact ⟨by simp, by simp, by simp, by simp, typeName, by simpa using again, rfl⟩
    next first =>
      have first : typeName ∉ seen := by simpa using first
      split
      next unregistered => exact ⟨by simp, by simp, by simp, by simp, rfl, unregistered⟩
      next typeDecl found =>
        have named := name_of_find? found
        have isRegistered : typeName ∈ schema.types.map TypeDecl.name :=
          List.mem_map.2 ⟨typeDecl, List.mem_of_find?_eq_some found, named⟩
        split
        next noBase =>
          refine ⟨?_, by simpa [named] using found, by simp, by simpa [named] using first, ?_⟩
          · rintro (_ | steps) held isHeld
            · cases isHeld
              rw [named]
              rfl
            · simp at isHeld
          · simp [EndsAt, baseAt, base?, found, noBase]
        next base isBase =>
          have next_ : schema.base? typeName = some base := by simp [base?, found, isBase]
          -- The walk goes on with this type among those that have been seen.
          have above := @ih base (typeName :: seen) (List.nodup_cons.2 ⟨first, apart⟩)
            (List.cons_subset.2 ⟨isRegistered, known⟩) (by simp; omega)
          generalize schema.baseChain fuel (typeName :: seen) base = rest at above
          obtain ⟨bases, ends⟩ := rest
          obtain ⟨along, registered, apart, new, stops⟩ := above
          refine ⟨?_, ?_, ?_, ?_, ?_⟩
          · rintro (_ | steps) held isHeld
            · cases isHeld
              rw [named]
              rfl
            · rw [baseAt, next_]
              exact along steps held isHeld
          · exact List.forall_mem_cons.2 ⟨by rw [named]; exact found, registered⟩
          · refine List.nodup_cons.2 ⟨fun isBelow => ?_, apart⟩
            obtain ⟨other, isOther, same⟩ := List.mem_map.1 isBelow
            exact new other isOther (by rw [same, named]; exact List.mem_cons_self)
          · refine List.forall_mem_cons.2 ⟨by rw [named]; exact first, fun other isOther => ?_⟩
            exact fun earlier => new other isOther (List.mem_cons_of_mem _ earlier)
          · have passed : ∀ name, name ∈ (typeName :: seen) ++ bases.map TypeDecl.name ↔
                name ∈ seen ++ (typeDecl :: bases).map TypeDecl.name := by
              intro name
              simp only [List.map_cons, named, List.mem_append, List.mem_cons]
              tauto
            have far : schema.baseAt typeName (typeDecl :: bases).length =
                schema.baseAt base bases.length := by
              rw [List.length_cons, baseAt, next_, Option.bind_some]
            simp only at stops ⊢
            rw [far]
            cases ends with
            | root => exact stops
            | missing name => exact stops
            | cycle =>
              obtain ⟨name, isPassed, isNext⟩ := stops
              exact ⟨name, (passed name).1 isPassed, isNext⟩

theorem chainOf_walked (schema : Schema) (typeName : String) :
    schema.Walked [] typeName (schema.chainOf typeName).1 (schema.chainOf typeName).2 :=
  baseChain_walked List.nodup_nil (List.nil_subset _) (Nat.lt_succ_self _)

theorem Walked.length_le {seen : List String} {chain : List TypeDecl} {ends : ChainEnd}
    (walked : schema.Walked seen typeName chain ends) : chain.length ≤ schema.types.length := by
  have registered : chain.map TypeDecl.name ⊆ schema.types.map TypeDecl.name := by
    intro name isPassed
    obtain ⟨typeDecl, onChain, rfl⟩ := List.mem_map.1 isPassed
    exact List.mem_map_of_mem (List.mem_of_find?_eq_some (walked.registered typeDecl onChain))
  simpa using length_le_of_registered walked.apart registered

theorem Walked.baseAt_eq {chain : List TypeDecl} (walked : schema.Walked [] typeName chain .root)
    (steps : Nat) : schema.baseAt typeName steps = chain[steps]?.map TypeDecl.name := by
  rcases Nat.lt_or_ge steps chain.length with within | behind
  · have held := List.getElem?_eq_getElem within
    rw [walked.along steps _ held, held, Option.map_some]
  · rw [List.getElem?_eq_none behind, Option.map_none]
    exact baseAt_none_of_le walked.stops behind

theorem Walked.length_le_of_unregistered {seen : List String} {chain : List TypeDecl}
    {ends : ChainEnd} (walked : schema.Walked seen typeName chain ends)
    (reached : schema.baseAt typeName steps = some missing)
    (unregistered : schema.find? missing = none) : chain.length ≤ steps := by
  refine Nat.le_of_not_lt fun within => ?_
  have held := List.getElem?_eq_getElem within
  cases (walked.along steps _ held).symm.trans reached
  have registered := walked.registered _ (List.mem_of_getElem? held)
  exact absurd (registered.symm.trans unregistered) (by simp)

theorem baseAt_succ_of_unregistered (reached : schema.baseAt typeName steps = some missing)
    (unregistered : schema.find? missing = none) : schema.baseAt typeName (steps + 1) = none := by
  rw [baseAt_add reached]
  simp [baseAt, base?, unregistered]

theorem Revisits.not_reachesUnregistered (revisits : schema.Revisits typeName) :
    ¬ schema.ReachesUnregistered typeName missing := by
  rintro ⟨steps, reached, unregistered⟩
  obtain ⟨name, further⟩ := revisits.endless (steps + 1)
  exact absurd (further.symm.trans (baseAt_succ_of_unregistered reached unregistered)) (by simp)

theorem ReachesUnregistered.unique {other : String}
    (first : schema.ReachesUnregistered typeName missing)
    (second : schema.ReachesUnregistered typeName other) : missing = other := by
  obtain ⟨steps, reached, unregistered⟩ := first
  obtain ⟨steps', reached', unregistered'⟩ := second
  rcases Nat.lt_trichotomy steps steps' with less | rfl | more
  · have ended := baseAt_none_of_le (baseAt_succ_of_unregistered reached unregistered) less
    exact absurd (reached'.symm.trans ended) (by simp)
  · exact Option.some.inj (reached.symm.trans reached')
  · have ended := baseAt_none_of_le (baseAt_succ_of_unregistered reached' unregistered') more
    exact absurd (reached.symm.trans ended) (by simp)

theorem Walked.revisits {chain : List TypeDecl} (walked : schema.Walked [] typeName chain .cycle) :
    schema.Revisits typeName := by
  obtain ⟨name, isPassed, isNext⟩ := walked.stops
  rw [List.nil_append] at isPassed
  obtain ⟨typeDecl, onChain, rfl⟩ := List.mem_map.1 isPassed
  obtain ⟨steps, within, isHeld⟩ := List.getElem_of_mem onChain
  refine ⟨typeDecl.name, steps, chain.length, within, walked.along steps typeDecl ?_, isNext⟩
  rw [List.getElem?_eq_getElem within, isHeld]

theorem Walked.not_revisits {chain : List TypeDecl}
    (walked : schema.Walked [] typeName chain .root) : ¬ schema.Revisits typeName := by
  intro revisits
  obtain ⟨name, further⟩ := revisits.endless chain.length
  exact absurd (further.symm.trans walked.stops) (by simp)

theorem Walked.not_reachesUnregistered {chain : List TypeDecl}
    (walked : schema.Walked [] typeName chain .root) :
    ¬ schema.ReachesUnregistered typeName missing := by
  rintro ⟨steps, reached, unregistered⟩
  have behind := walked.length_le_of_unregistered reached unregistered
  exact absurd (reached.symm.trans (baseAt_none_of_le walked.stops behind)) (by simp)

theorem members_outcome (schema : Schema) (typeName : String) :
    (schema.members typeName = .error (.cyclicBase typeName) ↔ schema.Revisits typeName) ∧
      (∀ missing, schema.members typeName = .error (.unknownType missing) ↔
        schema.ReachesUnregistered typeName missing) ∧
      ((∃ all, schema.members typeName = .ok all) ↔
        ¬ schema.Revisits typeName ∧ ∀ missing, ¬ schema.ReachesUnregistered typeName missing) := by
  have walked := schema.chainOf_walked typeName
  unfold members ancestry
  generalize schema.chainOf typeName = chained at walked
  obtain ⟨chain, ends⟩ := chained
  cases ends with
  | root =>
    have none_ (missing : String) : ¬ schema.ReachesUnregistered typeName missing :=
      walked.not_reachesUnregistered
    simp [walked.not_revisits, none_, pure, Except.pure]
  | cycle =>
    -- A chain that comes back to one of its types never leaves the registered ones.
    have revisits := walked.revisits
    have none_ (missing : String) : ¬ schema.ReachesUnregistered typeName missing :=
      revisits.not_reachesUnregistered
    simp [revisits, none_]
  | missing name =>
    have reaches : schema.ReachesUnregistered typeName name := ⟨chain.length, walked.stops⟩
    have once : ¬ schema.Revisits typeName := fun revisits =>
      revisits.not_reachesUnregistered reaches
    have only (missing : String) : name = missing ↔ schema.ReachesUnregistered typeName missing :=
      ⟨fun same => same ▸ reaches, reaches.unique⟩
    simp [once, only]
    exact ⟨name, reaches⟩

end QueryProjection.Schema
