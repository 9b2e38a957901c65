import QueryProjection.Filter.Arrangement
import QueryProjection.Proofs.Filter.Binding
import QueryProjection.Proofs.Mapping.Source

set_option autoImplicit false

namespace QueryProjection

namespace Filter

mutual

def paths : Filter → List String
  | .both left right => left.paths ++ right.paths
  | .either left right => left.paths ++ right.paths
  | .negation operand => operand.paths
  | .compare left _ right => left.paths ++ right.paths
  | .oneOf operand choices => operand.paths ++ listPaths choices
  | .function _ arguments => listPaths arguments
  | .member path => [path]
  | .literal _ => []

def listPaths : List Filter → List String
  | [] => []
  | filter :: rest => filter.paths ++ listPaths rest

end

end Filter

theorem Operand.requireBoolean_agree {expr expr' : Expr}
    (same : expr.type.scalarKind? = expr'.type.scalarKind?) :
    Outcome.Agree (requireBoolean expr) (requireBoolean expr') := by
  unfold requireBoolean
  rw [same]
  split
  next => exact .ok rfl
  next => exact .failed _ _

namespace Binder

inductive Built (binder : Binder) (paths : List String) : Expr → Prop where
  | path {path : String} {expr : Expr} (stands : path ∈ paths)
      (bound : binder.memberPath path = .ok expr) : Built binder paths expr
  | constant (value : Value) (ty : DataType) : Built binder paths (.constant value ty)
  | binary (operator : BinaryOperator) {left right : Expr} (first : Built binder paths left)
      (second : Built binder paths right) : Built binder paths (.binary operator left right)
  | negation {operand : Expr} (inner : Built binder paths operand) :
      Built binder paths (.negation operand)
  | conditional (ty : DataType) {test whenTrue whenFalse : Expr} (first : Built binder paths test)
      (second : Built binder paths whenTrue) (third : Built binder paths whenFalse) :
      Built binder paths (.conditional test whenTrue whenFalse ty)
  | unary (called : TextFunction) {target : Expr} (inner : Built binder paths target) :
      Built binder paths (.function called [target])
  | pair (called : TextFunction) {target argument : Expr} (first : Built binder paths target)
      (second : Built binder paths argument) : Built binder paths (.function called [target, argument])

variable {binder : Binder} {paths paths' : List String}

theorem Built.mono {expr : Expr} (built : binder.Built paths expr) (more : paths ⊆ paths') :
    binder.Built paths' expr := by
  induction built with
  | path stands bound => exact .path (more stands) bound
  | constant value ty => exact .constant value ty
  | binary operator _ _ first second => exact .binary operator first second
  | negation _ inner => exact .negation inner
  | conditional ty _ _ _ first second third => exact .conditional ty first second third
  | unary called _ inner => exact .unary called inner
  | pair called _ _ first second => exact .pair called first second

theorem typedAs_built {offset : Int} {ty : DataType} {literal : FilterLiteral} {expr : Expr}
    (typed : literal.typedAs offset ty = .ok expr) : binder.Built paths expr := by
  obtain ⟨value, ty', rfl⟩ := typedAs_constant typed
  exact .constant value ty'

theorem typedNaturally_built {offset : Int} {literal : FilterLiteral} {expr : Expr}
    (typed : literal.typedNaturally offset = .ok expr) : binder.Built paths expr := by
  obtain ⟨value, ty, rfl⟩ := typedNaturally_constant typed
  exact .constant value ty

def OperandBuilt (binder : Binder) (paths : List String) : Operand → Prop
  | .typed _ expr => binder.Built paths expr
  | .literal _ => True

theorem OperandBuilt.mono {operand : Operand} (built : binder.OperandBuilt paths operand)
    (more : paths ⊆ paths') : binder.OperandBuilt paths' operand := by
  cases operand with
  | typed role expr => exact Built.mono built more
  | literal value => trivial

theorem asCondition_built {operand : Operand} {expr : Expr}
    (built : binder.OperandBuilt paths operand) (condition : operand.asCondition = .ok expr) :
    binder.Built paths expr := by
  cases Operand.isCondition_of_asCondition condition with
  | member _ => exact .binary _ built (.constant _ _)
  | call _ => exact built
  | condition _ => exact built
  | literal verdict => exact .constant _ _

theorem asText_built {operand : Operand} {offset : Int} {expr : Expr}
    (built : binder.OperandBuilt paths operand) (text : operand.asText offset = .ok expr) :
    binder.Built paths expr := by
  cases Operand.isText_of_asText text with
  | typed role _ => exact built
  | literal isTyped => exact typedAs_built isTyped

theorem aligned_built {left right : Operand} {offset : Int} {first second : Expr}
    (builtLeft : binder.OperandBuilt paths left) (builtRight : binder.OperandBuilt paths right)
    (aligned : left.aligned offset right = .ok (first, second)) :
    binder.Built paths first ∧ binder.Built paths second := by
  cases Operand.aligned_of_eq_ok aligned with
  | typed role role' _ _ => exact ⟨builtLeft, builtRight⟩
  | right role isTyped => exact ⟨builtLeft, typedAs_built isTyped⟩
  | left role isTyped => exact ⟨typedAs_built isTyped, builtRight⟩
  | literals isTyped isTyped' => exact ⟨typedNaturally_built isTyped, typedNaturally_built isTyped'⟩

theorem asTarget_built {operand : Operand} {offset : Int} {expr : Expr}
    (built : binder.OperandBuilt paths operand) (target : operand.asTarget offset = .ok expr) :
    binder.Built paths expr := by
  unfold Operand.asTarget at target
  split at target
  next =>
    simp only [Except.ok.injEq] at target
    exact target ▸ built
  next => exact typedNaturally_built target

theorem testCall_built {function : TextFunction} {target argument : Expr}
    (first : binder.Built paths target) (second : binder.Built paths argument) :
    binder.Built paths (binder.testCall function target argument) := by
  unfold testCall
  dsimp only
  split
  next => exact .binary _ (.binary _ first (.constant _ _)) (.pair _ first second)
  next => exact .pair _ first second

theorem valueCall_built {function : TextFunction} {target : Expr}
    (inner : binder.Built paths target) : binder.Built paths (binder.valueCall function target) := by
  unfold valueCall
  dsimp only
  split
  next => exact .conditional _ (.binary _ inner (.constant _ _)) (.constant _ _) (.unary _ inner)
  next => exact .unary _ inner

theorem choiceTests_built {target : Expr} {choices : List Filter} {tests : List Expr}
    (inner : binder.Built paths target) (bound : binder.choiceTests target choices = .ok tests) :
    ∀ test ∈ tests, binder.Built paths test := by
  intro test isTest
  obtain ⟨choice, -, made⟩ := Outcome.exists_of_forall₂ (choiceTests_eq_ok.1 bound).flip isTest
  cases made with
  | literal isTyped => exact .binary _ inner (typedAs_built isTyped)

theorem anyOf_built {tests : List Expr} (built : ∀ test ∈ tests, binder.Built paths test) :
    binder.Built paths (anyOf tests) := by
  cases tests with
  | nil => exact .constant _ _
  | cons first rest =>
    obtain ⟨isFirst, areRest⟩ := List.forall_mem_cons.1 built
    unfold anyOf
    clear built
    induction rest generalizing first with
    | nil => exact isFirst
    | cons next rest ih =>
      obtain ⟨isNext, areRest⟩ := List.forall_mem_cons.1 areRest
      exact ih _ (.binary _ isFirst isNext) areRest

theorem anyOf_related {relation : Expr → Expr → Prop}
    (empty : relation (.truthConstant false) (.truthConstant false))
    (either : ∀ {left left' right right' : Expr}, relation left left' → relation right right' →
      relation (.binary .orElse left right) (.binary .orElse left' right'))
    {tests tests' : List Expr} (each : List.Forall₂ relation tests tests') :
    relation (anyOf tests) (anyOf tests') := by
  have grows {rest rest' : List Expr} {start start' : Expr}
      (each : List.Forall₂ relation rest rest') (first : relation start start') :
      relation (rest.foldl (fun all test => .binary .orElse all test) start)
        (rest'.foldl (fun all test => .binary .orElse all test) start') := by
    induction each generalizing start start' with
    | nil => exact first
    | cons isTest _ ih => exact ih (either first isTest)
  cases each with
  | nil => exact empty
  | cons isTest each => exact grows each isTest

theorem Binds.built {filter : Filter} {operand : Operand} (binds : binder.Binds filter operand) :
    binder.OperandBuilt filter.paths operand := by
  induction binds with
  | both _ condition _ condition' first second | either _ condition _ condition' first second =>
    have builtLeft := asCondition_built first condition
    have builtRight := asCondition_built second condition'
    exact .binary _ (builtLeft.mono (List.subset_append_left _ _))
      (builtRight.mono (List.subset_append_right _ _))
  | negation _ condition inner => exact .negation (asCondition_built inner condition)
  | @compare _ left right _ _ _ _ _ _ aligned first second =>
    have builtLeft := first.mono (List.subset_append_left left.paths right.paths)
    have builtRight := second.mono (List.subset_append_right left.paths right.paths)
    obtain ⟨builtFirst, builtSecond⟩ := aligned_built builtLeft builtRight aligned
    exact .binary _ builtFirst builtSecond
  | oneOf _ isTarget areTests inner =>
    have built := choiceTests_built (asTarget_built inner isTarget) areTests
    exact (anyOf_built built).mono (List.subset_append_left _ _)
  | valueCall _ _ _ isText target =>
    exact valueCall_built ((asText_built target isText).mono (List.subset_append_left _ _))
  | testCall _ _ _ isText _ isText' target argument =>
    have builtFirst := asText_built target isText
    have builtSecond := asText_built argument isText'
    refine testCall_built (builtFirst.mono (List.subset_append_left _ _)) (builtSecond.mono ?_)
    exact List.subset_append_of_subset_right _ (List.subset_append_left _ _)
  | member reads => exact .path List.mem_cons_self reads
  | literal value => trivial

theorem predicate_built {filter : Filter} {expr : Expr}
    (bound : binder.predicate filter = .ok expr) : binder.Built filter.paths expr := by
  obtain ⟨operand, isOperand, condition⟩ := Outcome.bind_eq_ok.1 bound
  exact asCondition_built (operand_eq_ok.1 isOperand).built condition

theorem memberSteps_holds {holds : Expr → Prop} (stable : Expr.StableUnderReading holds)
    {path : String} {previous : Option String} {guards : List Expr} {current expr : Expr}
    {segments : List String} (areGuards : ∀ guard ∈ guards, holds guard)
    (isCurrent : holds current)
    (reads : binder.memberSteps path previous guards current segments = .ok expr) :
    holds expr := by
  induction segments generalizing previous guards current with
  | nil =>
    simp only [memberSteps, Except.ok.injEq] at reads
    exact reads ▸ stable.unlessNull areGuards isCurrent
  | cons segment rest ih =>
    obtain ⟨_, member, -, -, -, reads⟩ := memberSteps_cons reads
    -- What has been read so far becomes a guard of what is read from it.
    refine ih ?_ (stable.member _ _ _ isCurrent) reads
    split
    next =>
      intro guard member
      rcases List.mem_append.1 member with earlier | last
      · exact areGuards guard earlier
      · exact List.mem_singleton.1 last ▸ isCurrent
    next => exact areGuards

section Rules

variable {Place : Type} {rules : PlaceRules Place} {place : Place} {expr : Expr}

theorem memberPath_obeys {path : String} (visible : rules.reads place binder.element)
    (reads : binder.memberPath path = .ok expr) : expr.Obeys rules place := by
  have element : (Expr.parameter binder.element).Obeys rules place := visible
  exact memberSteps_holds (Expr.stable_obeys _ _) (by simp) element (memberSteps_of_memberPath reads)

theorem Built.obeys (visible : rules.reads place binder.element)
    (built : binder.Built paths expr) : expr.Obeys rules place := by
  induction built with
  | path stands bound => exact memberPath_obeys visible bound
  | constant value ty => trivial
  | binary operator _ _ first second => exact ⟨first, second⟩
  | negation _ inner => exact inner
  | conditional ty _ _ _ first second third => exact ⟨first, second, third⟩
  | unary called _ inner => exact ⟨inner, trivial⟩
  | pair called _ _ first second => exact ⟨first, second, trivial⟩

theorem memberPath_scopedIn {path : String} (reads : binder.memberPath path = .ok expr) :
    expr.ScopedIn [binder.element] :=
  (Expr.obeys_scopeRules expr).1 (memberPath_obeys (Parameter.visibleIn_cons.2 (.inl rfl)) reads)

theorem Built.scopedIn (built : binder.Built paths expr) : expr.ScopedIn [binder.element] :=
  (Expr.obeys_scopeRules expr).1 (built.obeys (Parameter.visibleIn_cons.2 (.inl rfl)))

end Rules

end Binder

theorem Filter.bind_eq_ok {schema : Schema} {elementType : String} {filter : Filter}
    {context : BindingContext} {predicate : Lambda}
    (bound : filter.bind schema elementType context = .ok predicate) :
    predicate.parameter = Binder.element ⟨schema, elementType, context⟩ ∧
      Binder.Built ⟨schema, elementType, context⟩ filter.paths predicate.body := by
  simp only [Filter.bind, Outcome.bind_eq_ok, Outcome.pure_eq_ok] at bound
  obtain ⟨-, -, body, isBody, rfl⟩ := bound
  exact ⟨rfl, Binder.predicate_built isBody⟩

end QueryProjection
