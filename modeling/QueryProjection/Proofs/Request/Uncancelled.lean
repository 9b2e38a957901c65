import QueryProjection.Proofs.Expansion.Changes
import QueryProjection.Proofs.Value.Json
import QueryProjection.Run.Projection

set_option autoImplicit false

namespace QueryProjection

namespace Outcome

def Uncancelled {α : Type} (outcome : Outcome α) : Prop :=
  outcome ≠ .error .cancelled

variable {α β : Type}

@[simp] theorem uncancelled_ok (value : α) : Uncancelled (.ok value) := by
  simp [Uncancelled]

@[simp] theorem uncancelled_pure (value : α) : Uncancelled (pure value) := by
  simp [Uncancelled, pure, Except.pure]

@[simp] theorem uncancelled_error {cause : Error} :
    Uncancelled (.error cause : Outcome α) ↔ cause ≠ .cancelled := by
  simp [Uncancelled]

@[simp] theorem uncancelled_bind {outcome : Outcome α} {next : α → Outcome β} :
    Uncancelled (outcome >>= next) ↔
      Uncancelled outcome ∧ ∀ value, outcome = .ok value → Uncancelled (next value) := by
  cases outcome with
  | ok value => simp
  | error cause => simp [error_bind]

@[simp] theorem uncancelled_map {outcome : Outcome α} (function : α → β) :
    Uncancelled (function <$> outcome) ↔ Uncancelled outcome := by
  cases outcome <;> simp [Functor.map, Except.map]

theorem Uncancelled.bind {outcome : Outcome α} {next : α → Outcome β}
    (first : Uncancelled outcome) (then_ : ∀ value, Uncancelled (next value)) :
    Uncancelled (outcome >>= next) :=
  uncancelled_bind.2 ⟨first, fun value _ => then_ value⟩

theorem Uncancelled.ne_cancelled {outcome : Outcome α} {cause : Error}
    (uncancelled : Uncancelled outcome) (failed : outcome = .error cause) : cause ≠ .cancelled := by
  rw [failed] at uncancelled
  exact uncancelled_error.1 uncancelled

theorem Uncancelled.foldlM {step : β → α → Outcome β}
    (each : ∀ held item, Uncancelled (step held item)) (items : List α) (first : β) :
    Uncancelled (items.foldlM step first) := by
  induction items generalizing first with
  | nil => simp
  | cons item rest ih => simp [List.foldlM_cons, each, ih]

theorem Uncancelled.mapM {step : α → Outcome β} (each : ∀ item, Uncancelled (step item))
    (items : List α) : Uncancelled (items.mapM step) := by
  induction items with
  | nil => simp
  | cons item rest ih => simp [List.mapM_cons, each, ih]

end Outcome

open Outcome

namespace Schema

variable (schema : Schema)

@[simp] theorem uncancelled_get (name : String) : Uncancelled (schema.get name) := by
  unfold get
  split <;> simp

@[simp] theorem uncancelled_resolve (typeName memberName : String) :
    Uncancelled (schema.resolve typeName memberName) := by
  unfold resolve
  split <;> simp

@[simp] theorem uncancelled_ancestry (name : String) : Uncancelled (schema.ancestry name) := by
  unfold ancestry
  split <;> simp

@[simp] theorem uncancelled_members (typeName : String) :
    Uncancelled (schema.members typeName) := by
  simp [members]

@[simp] theorem uncancelled_memberKind (ty : DataType) : Uncancelled (schema.memberKind ty) := by
  unfold memberKind
  split
  next => simp
  next name _ =>
    split
    next => simp
    next cause failed => simpa using (schema.uncancelled_get name).ne_cancelled failed
  next => simp

@[simp] theorem uncancelled_targetKind (ty : DataType) : Uncancelled (schema.targetKind ty) := by
  simp [targetKind]

end Schema

namespace FilterLiteral

variable (offset : Int) (literal : FilterLiteral)

@[simp] theorem uncancelled_mismatch {α : Type} (kind : ScalarKind) :
    Uncancelled (mismatch kind literal : Outcome α) := by
  simp [mismatch]

@[simp] theorem uncancelled_orMismatch {α : Type} (kind : ScalarKind) (value : Option α) :
    Uncancelled (orMismatch kind literal value) := by
  cases value <;> simp [orMismatch]

@[simp] theorem uncancelled_decimal (numeral : Numeral) : Uncancelled (decimal numeral) := by
  unfold decimal
  split <;> simp

@[simp] theorem uncancelled_coerce (kind : ScalarKind) :
    Uncancelled (coerce offset kind literal) := by
  unfold coerce
  split <;> simp

@[simp] theorem uncancelled_typedAs (ty : DataType) : Uncancelled (typedAs offset ty literal) := by
  unfold typedAs
  split <;> simp

@[simp] theorem uncancelled_typedNaturally : Uncancelled (typedNaturally offset literal) := by
  unfold typedNaturally
  split <;> simp

end FilterLiteral

namespace Operand

variable (offset : Int) (operand other : Operand)

@[simp] theorem uncancelled_requireBoolean (expr : Expr) : Uncancelled (requireBoolean expr) := by
  unfold requireBoolean
  split <;> simp

@[simp] theorem uncancelled_asCondition : Uncancelled operand.asCondition := by
  unfold asCondition
  split <;> simp

@[simp] theorem uncancelled_asText : Uncancelled (operand.asText offset) := by
  unfold asText
  split
  next => split <;> simp
  next => simp

@[simp] theorem uncancelled_aligned : Uncancelled (operand.aligned offset other) := by
  unfold aligned
  split <;> simp

@[simp] theorem uncancelled_asTarget : Uncancelled (operand.asTarget offset) := by
  unfold asTarget
  split <;> simp

end Operand

namespace Binder

variable (binder : Binder)

theorem uncancelled_memberSteps (path : String) (segments : List String) :
    ∀ (previous : Option String) (guards : List Expr) (current : Expr),
      Uncancelled (binder.memberSteps path previous guards current segments) := by
  induction segments with
  | nil => simp [memberSteps]
  | cons segment rest ih =>
    intro previous guards current
    unfold memberSteps
    split
    next => simp
    next =>
      split
      next => simp [ih]
      next => simp

@[simp] theorem uncancelled_memberPath (path : String) : Uncancelled (binder.memberPath path) := by
  unfold memberPath
  split
  next => simp
  next => exact binder.uncancelled_memberSteps path _ none [] _

@[simp] theorem uncancelled_requireArity (name : String) (count : Nat) :
    Uncancelled (requireArity name count) := by
  have named : Uncancelled (functionNamed name) := by
    unfold functionNamed
    split <;> simp
  refine named.bind fun function => ?_
  split <;> simp [wrongArity]

@[simp] theorem uncancelled_choiceTests (target : Expr) (choices : List Filter) :
    Uncancelled (binder.choiceTests target choices) := by
  fun_induction choiceTests <;> simp_all

@[simp] theorem uncancelled_operand (filter : Filter) : Uncancelled (binder.operand filter) := by
  fun_induction operand
  case case9 name arguments cause _ _ failed =>
    exact uncancelled_error.2 ((uncancelled_requireArity name _).ne_cancelled failed)
  all_goals simp_all [wrongArity]

@[simp] theorem uncancelled_predicate (filter : Filter) :
    Uncancelled (binder.predicate filter) := by
  simp [predicate]

end Binder

@[simp] theorem Filter.uncancelled_bind (schema : Schema) (elementType : String) (filter : Filter)
    (context : BindingContext) : Uncancelled (filter.bind schema elementType context) := by
  simp [Filter.bind]

namespace Arrangement

@[simp] theorem uncancelled_checkedCount (number : Nat) : Uncancelled (checkedCount number) := by
  unfold checkedCount
  split <;> simp

theorem uncancelled_orderedBy (binder : Binder) (order : List OrderKey) :
    ∀ (isFirst : Bool) (sequence : Expr),
      Uncancelled (orderedBy binder isFirst sequence order) := by
  induction order with
  | nil => simp [orderedBy]
  | cons key rest ih => simp [orderedBy, ih]

@[simp] theorem uncancelled_applyTo (arrangement : Arrangement) (binder : Binder)
    (sequence : Expr) : Uncancelled (arrangement.applyTo binder sequence) := by
  obtain ⟨order, skip, top⟩ := arrangement
  cases skip <;> cases top <;> simp [applyTo, uncancelled_orderedBy, skippedBy, takenBy]

end Arrangement

namespace Resolver

variable (resolver : Resolver)

@[simp] theorem uncancelled_invalidExpand {α : Type} (detail : String) :
    Uncancelled (invalidExpand detail : Outcome α) := by
  simp [invalidExpand]

@[simp] theorem uncancelled_stepOf (declaringType : String) (member : MemberDecl) :
    Uncancelled (resolver.stepOf declaringType member) := by
  simp [stepOf]

theorem uncancelled_followFrom (path : MemberPath) (typeName : String) (segments : List String) :
    Uncancelled (resolver.followFrom path typeName segments) := by
  induction segments generalizing path typeName with
  | nil => simp [followFrom]
  | cons name rest ih =>
    cases rest with
    | nil => simp [followFrom]
    | cons next rest =>
      refine Uncancelled.bind (by simp) fun member => Uncancelled.bind (by simp) fun step => ?_
      split
      next => exact ih _ _
      next => simp

@[simp] theorem uncancelled_follow (path : MemberPath) (typeName : String)
    (segments : List String) : Uncancelled (resolver.follow path typeName segments) := by
  unfold follow
  split <;> simp [uncancelled_followFrom]

theorem uncancelled_defaultsWithin (fuel : Nat) :
    ∀ (typeName : String) (path : MemberPath) (forest : Forest),
      Uncancelled (resolver.defaultsWithin fuel typeName path forest) := by
  induction fuel with
  | zero => simp [defaultsWithin]
  | succ fuel ih =>
    intro typeName path forest
    refine Uncancelled.bind (by simp) fun members => Uncancelled.foldlM (fun held member => ?_) _ _
    refine Uncancelled.bind (by simp) fun kind => Uncancelled.bind (by simp) fun step => ?_
    split
    next => simp
    next => split <;> simp [ih]
    next => simp

@[simp] theorem uncancelled_addDefaults (typeName : String) (path : MemberPath) (forest : Forest) :
    Uncancelled (resolver.addDefaults typeName path forest) :=
  resolver.uncancelled_defaultsWithin _ typeName path forest

@[simp] theorem uncancelled_checkItems (items : List ClauseItem) :
    Uncancelled (checkItems items) := by
  fun_induction checkItems <;> simp_all

@[simp] theorem uncancelled_expandTarget (path : MemberPath) (typeName : String)
    (segments : List String) (filter : Option Filter) (arrangement : Arrangement) :
    Uncancelled (resolver.expandTarget path typeName segments filter arrangement) := by
  refine Uncancelled.bind (by simp) fun target => ?_
  split
  next => simp
  next =>
    refine Uncancelled.bind (by simp) fun kind => ?_
    split <;> simp

@[simp] theorem uncancelled_selectTarget (path : MemberPath) (typeName : String)
    (segments : List String) : Uncancelled (resolver.selectTarget path typeName segments) := by
  refine Uncancelled.bind (by simp) fun target => Uncancelled.bind (by simp) fun kind => ?_
  split <;> simp

theorem uncancelled_level {addExpands addSelects : Forest → Outcome Forest}
    (expands : ∀ forest, Uncancelled (addExpands forest))
    (selects : ∀ forest, Uncancelled (addSelects forest)) (typeName : String) (path : MemberPath)
    (allSelected : Bool) (items : List ClauseItem) (forest : Forest) :
    Uncancelled (resolver.level typeName path allSelected items addExpands addSelects forest) := by
  refine Uncancelled.bind (by simp) fun _ => (expands forest).bind fun forest => ?_
  split <;> simp [selects]

mutual

theorem uncancelled_addExpands (typeName : String) (path : MemberPath) (items : List ClauseItem)
    (forest : Forest) : Uncancelled (resolver.addExpands typeName path items forest) := by
  match items with
  | [] => simp [addExpands]
  | .expand segments nested filter arrangement :: rest =>
    have later := uncancelled_addExpands typeName path rest
    simp only [addExpands]
    refine Uncancelled.bind (by simp) fun target => ?_
    match nested with
    | none => simp [later]
    | some ⟨allSelected, items⟩ =>
      have nested := resolver.uncancelled_level (uncancelled_addExpands target.2 target.1 items)
        (uncancelled_addSelects target.2 target.1 items)
      simp [later, nested]
  | .path _ _ :: rest => simp only [addExpands, uncancelled_addExpands typeName path rest]
  | .reference _ :: rest => simp only [addExpands, uncancelled_addExpands typeName path rest]
  | .count _ :: rest => simp only [addExpands, uncancelled_addExpands typeName path rest]

theorem uncancelled_addSelects (typeName : String) (path : MemberPath) (items : List ClauseItem)
    (forest : Forest) : Uncancelled (resolver.addSelects typeName path items forest) := by
  match items with
  | [] => simp [addSelects]
  | .path segments nested :: rest =>
    have later := uncancelled_addSelects typeName path rest
    simp only [addSelects]
    refine Uncancelled.bind (by simp) fun target => ?_
    match target, nested with
    | (_, none), _ => simp [later]
    | (_, some _), none => simp [later]
    | (target, some element), some ⟨allSelected, items⟩ =>
      have nested := resolver.uncancelled_level (uncancelled_addExpands element target items)
        (uncancelled_addSelects element target items)
      simp [later, nested]
  | .expand _ _ _ _ :: rest => simp only [addSelects, uncancelled_addSelects typeName path rest]
  | .reference _ :: rest => simp only [addSelects, uncancelled_addSelects typeName path rest]
  | .count _ :: rest => simp only [addSelects, uncancelled_addSelects typeName path rest]

end

end Resolver

@[simp] theorem Forest.uncancelled_build (schema : Schema) (rootType : String)
    (clause : Option Clause) (context : BindingContext) (maxExpandDepth : Nat) :
    Uncancelled (Forest.build schema rootType clause context maxExpandDepth) := by
  refine Uncancelled.bind (by simp) fun _ => ?_
  split
  next => simp
  next allSelected items =>
    exact Resolver.uncancelled_level _ (Resolver.uncancelled_addExpands _ rootType [] items)
      (Resolver.uncancelled_addSelects _ rootType [] items) rootType [] allSelected items .empty

namespace Include

variable (schema : Schema)

theorem uncancelled_chain (path : MemberPath) :
    ∀ (depth : Nat) (target : Expr), Uncancelled (chain schema depth target path) := by
  induction path with
  | nil => simp [chain]
  | cons step rest ih =>
    intro depth target
    cases rest with
    | nil => simp [chain]
    | cons next rest =>
      refine Uncancelled.bind (by simp) fun member => ?_
      dsimp only
      split <;> simp [ih]

theorem uncancelled_liesOnExpansions (expansions : List MemberPath) (path : MemberPath) :
    ∀ before : MemberPath, Uncancelled (liesOnExpansions schema expansions before path) := by
  induction path with
  | nil => simp [liesOnExpansions]
  | cons step rest ih =>
    intro before
    refine Uncancelled.bind (by simp) fun kind => ?_
    dsimp only
    split
    next => split <;> simp [ih]
    next => exact ih _

theorem uncancelled_collect {rootType : String} {wanted : MemberPath → Outcome Bool}
    (each : ∀ path, Uncancelled (wanted path)) (paths : List MemberPath) :
    Uncancelled (collect schema rootType wanted paths) := by
  induction paths with
  | nil => simp [collect]
  | cons path rest ih =>
    refine (each path).bind fun isWanted => ?_
    split <;> simp [ofPath, uncancelled_chain, ih]

@[simp] theorem uncancelled_ofForest (rootType : String) (forest : Forest) :
    Uncancelled (ofForest schema rootType forest) := by
  simp [ofForest, uncancelled_collect, uncancelled_liesOnExpansions]

theorem uncancelled_membersOf (expr : Expr) : Uncancelled (membersOf expr) := by
  fun_induction membersOf <;> simp_all [unexpected]

@[simp] theorem uncancelled_membersRead (path : Lambda) : Uncancelled (membersRead path) :=
  uncancelled_membersOf path.body

end Include

namespace Value

theorem uncancelled_readFields {readers : List (String × (DataType → Outcome Value))}
    (each : ∀ reader ∈ readers, ∀ ty, Uncancelled (reader.2 ty)) (members : List MemberDecl) :
    Uncancelled (readFields readers members) := by
  induction members with
  | nil => simp [readFields]
  | cons member rest ih =>
    simp only [readFields]
    split
    next reader found =>
      obtain ⟨key, isReader⟩ := mem_of_findReader found
      simp [each _ isReader, ih]
    next => simp [ih]

mutual

theorem uncancelled_ofJson (schema : Schema) (json : Json) (ty : DataType) :
    Uncancelled (ofJson schema json ty) := by
  match json with
  | .null => simp [ofJson]
  | .array items =>
    simp only [ofJson]
    split <;> simp [uncancelled_ofItems schema items, mismatch]
  | .object members =>
    simp only [ofJson]
    split <;>
      simp [uncancelled_readFields (uncancelled_memberReaders schema members), mismatch]
  | .bool _ | .integer _ | .float _ | .string _ =>
    simp only [ofJson]
    split
    next kind _ =>
      unfold readScalar
      split <;> simp [mismatch]
    all_goals simp [mismatch]

theorem uncancelled_ofItems (schema : Schema) (items : List Json) (element : DataType) :
    Uncancelled (ofItems schema items element) := by
  match items with
  | [] => simp [ofItems]
  | item :: rest =>
    simp [ofItems, uncancelled_ofJson schema item, uncancelled_ofItems schema rest]

theorem uncancelled_memberReaders (schema : Schema) (members : List (String × Json)) :
    ∀ reader ∈ memberReaders schema members, ∀ ty, Uncancelled (reader.2 ty) := by
  match members with
  | [] => simp [memberReaders]
  | (key, value) :: rest =>
    -- A reader is the value that is still to be read, for any type.
    simp only [memberReaders, List.forall_mem_cons]
    exact ⟨uncancelled_ofJson schema value, uncancelled_memberReaders schema rest⟩

end

end Value

namespace Mapping

variable (mapping : Mapping)

@[simp] theorem uncancelled_readSame (source : Expr) (member : String) :
    Uncancelled (mapping.readSame source member) := by
  unfold readSame
  split <;> simp [cannotRead]

@[simp] theorem uncancelled_readPath (source : Expr) (names : List String) :
    Uncancelled (mapping.readPath source names) := by
  have steps (rest : List String) : ∀ (guards : List Expr) (current : Expr),
      Uncancelled (mapping.readSteps guards current rest) := by
    induction rest with
    | nil => simp [readSteps]
    | cons name rest ih => simp [readSteps, ih]
  cases names <;> simp [readPath, steps]

@[simp] theorem uncancelled_readMapped (modelType member : String) (source : Expr) :
    Uncancelled (mapping.readMapped modelType member source) := by
  unfold readMapped
  split <;> simp

mutual

theorem uncancelled_toSource (expr : Expr) : Uncancelled (mapping.toSource expr) := by
  cases expr with
  | member target name ty =>
    have target := uncancelled_toSource target
    simp only [toSource]
    split <;> simp [target, cannotRead]
  | lambda param body => simp [toSource, uncancelled_toSource body]
  | call method arguments ty => simp [toSource, uncancelled_allToSource arguments]
  | binary operator left right =>
    simp [toSource, uncancelled_toSource left, uncancelled_toSource right]
  | negation operand => simp [toSource, uncancelled_toSource operand]
  | conditional test whenTrue whenFalse ty =>
    simp [toSource, uncancelled_toSource test, uncancelled_toSource whenTrue,
      uncancelled_toSource whenFalse]
  | convert operand ty => simp [toSource, uncancelled_toSource operand]
  | function called arguments => simp [toSource, uncancelled_allToSource arguments]
  | _ => simp [toSource]

theorem uncancelled_allToSource (exprs : List Expr) : Uncancelled (mapping.allToSource exprs) := by
  cases exprs with
  | nil => simp [allToSource]
  | cons expr rest =>
    simp [allToSource, uncancelled_toSource expr, uncancelled_allToSource rest]

end

@[simp] theorem uncancelled_lambdaToSource (lambda : Lambda) :
    Uncancelled (mapping.lambdaToSource lambda) := by
  simp [lambdaToSource, uncancelled_toSource]

@[simp] theorem uncancelled_predicateToSource (predicate : Lambda) (sourceType : String) :
    Uncancelled (mapping.predicateToSource predicate sourceType) := by
  refine Uncancelled.bind (by simp) fun mapped => ?_
  split <;> simp

theorem uncancelled_fit {construct : Construct}
    (constructs : ∀ modelType source depth, Uncancelled (construct modelType source depth))
    (memberType : DataType) (value : Expr) (depth : Nat) :
    Uncancelled (mapping.fit construct memberType value depth) := by
  refine Uncancelled.bind (by simp) fun kind => ?_
  split
  next => split <;> simp
  next => simp
  next =>
    split
    next => simp
    next => split <;> simp [fitItems, fitRecord, constructs]

theorem uncancelled_bindingValue {construct : Construct}
    (constructs : ∀ modelType source depth, Uncancelled (construct modelType source depth))
    (parameters : ProjectionParameters) (modelType : String) (member : MemberDecl) (source : Expr)
    (depth : Nat) :
    Uncancelled (mapping.bindingValue parameters construct modelType member source depth) := by
  unfold bindingValue
  split
  next name _ =>
    have supplied : Uncancelled (mapping.parameterValue parameters name member.ty) := by
      unfold parameterValue
      split <;> simp [Value.uncancelled_ofJson]
    simp [supplied]
  next => simp [mapping.uncancelled_fit constructs]
  next => simp [mapping.uncancelled_fit constructs]

theorem uncancelled_construct (parameters : ProjectionParameters) (fuel : Nat) :
    ∀ (tree : IncludeTree) (modelType : String) (source : Expr) (depth : Nat),
      Uncancelled (mapping.construct parameters fuel tree modelType source depth) := by
  induction fuel with
  | zero => simp [construct]
  | succ fuel ih =>
    intro tree modelType source depth
    refine Uncancelled.bind (by simp) fun members =>
      Uncancelled.bind (Uncancelled.mapM (fun member => ?_) members) (by simp)
    have included : Uncancelled (mapping.includeFor tree member) := by
      unfold includeFor
      split
      next => simp
      next => split <;> simp
    -- Below an included member the construction goes on with less fuel.
    refine included.bind fun child => ?_
    split
    next => simp
    next child => simp [mapping.uncancelled_bindingValue (ih child)]

@[simp] theorem uncancelled_project (sourceType modelType : String) (includes : List Lambda)
    (parameters : ProjectionParameters) :
    Uncancelled (mapping.project sourceType modelType includes parameters) := by
  have tree : Uncancelled (includeTree includes) := Uncancelled.foldlM (by simp) includes _
  simp [project, tree, uncancelled_construct]

end Mapping

namespace Refiner

variable (refiner : Refiner)

theorem uncancelled_changeSelected {change : Expr → Outcome Expr}
    (changes : ∀ expr, Uncancelled (change expr)) (expr : Expr) :
    Uncancelled (changeSelected change expr) := by
  fun_induction changeSelected <;> simp_all [malformed]

theorem uncancelled_changeSequence {change : SequenceChange}
    (changes : ∀ site expr, Uncancelled (change site expr)) (step : ExpansionStep)
    (element : String) (value : Expr) :
    Uncancelled (changeSequence change step element value) := by
  unfold changeSequence
  split
  next => exact uncancelled_changeSelected (changes _) value
  next => split <;> simp [changes, malformed]

theorem uncancelled_filterChange (predicate : Lambda) (site : RefinementSite) (sequence : Expr) :
    Uncancelled (refiner.filterChange predicate site sequence) := by
  unfold filterChange
  split
  next => simp
  next => split <;> simp

theorem uncancelled_arrangementChange (transform : Lambda) (site : RefinementSite)
    (sequence : Expr) : Uncancelled (refiner.arrangementChange transform site sequence) := by
  cases site <;> simp [arrangementChange]

theorem uncancelled_changeOf (kind : RefinementKind) (step : ExpansionStep) (element : String) :
    Uncancelled (refiner.changeOf kind step element) := by
  cases kind with
  | filter =>
    cases present : step.filter <;> simp [changeOf, present, malformed, ScopedFilter.bind]
  | arrangement =>
    cases present : step.arrangement <;> simp [changeOf, present, malformed, transformOf]

theorem uncancelled_change {kind : RefinementKind} {step : ExpansionStep} {element : String}
    {change : SequenceChange} (asks : refiner.Asks step element kind change) (site : RefinementSite)
    (sequence : Expr) : Uncancelled (change site sequence) := by
  cases asks with
  | filter _ _ => exact refiner.uncancelled_filterChange _ site sequence
  | arrangement _ _ => exact refiner.uncancelled_arrangementChange _ site sequence

theorem uncancelled_changeMember (kind : RefinementKind) (step : ExpansionStep) (value : Expr) :
    Uncancelled (refiner.changeMember kind step value) := by
  unfold changeMember
  split
  next element _ =>
    refine uncancelled_bind.2
      ⟨refiner.uncancelled_changeOf kind step element, fun change made => ?_⟩
    have sequences := uncancelled_changeSequence
      (refiner.uncancelled_change (asks_of_changeOf made)) step element
    unfold changeValue
    split <;> simp [sequences]
  next => simp [malformed]

section Descending

variable {change : ExpansionStep → Expr → Outcome Expr}

mutual

theorem uncancelled_descend (changes : ∀ step expr, Uncancelled (change step expr))
    (step : ExpansionStep) (rest : ExpansionSteps) (expr : Expr) :
    Uncancelled (descend change step rest expr) := by
  cases expr with
  | member target name ty => simp [descend, uncancelled_descend changes step rest target]
  | construct ty bindings =>
    simp only [descend]
    split
    next => simp [uncancelled_followBindings changes step rest bindings]
    next => simp [uncancelled_descendBindings changes step rest bindings]
  | lambda param body => simp [descend, uncancelled_descend changes step rest body]
  | call method arguments ty => simp [descend, uncancelled_descendAll changes step rest arguments]
  | binary operator left right =>
    simp [descend, uncancelled_descend changes step rest left,
      uncancelled_descend changes step rest right]
  | negation operand => simp [descend, uncancelled_descend changes step rest operand]
  | conditional test whenTrue whenFalse ty =>
    simp [descend, uncancelled_descend changes step rest test,
      uncancelled_descend changes step rest whenTrue,
      uncancelled_descend changes step rest whenFalse]
  | convert operand ty => simp [descend, uncancelled_descend changes step rest operand]
  | function called arguments => simp [descend, uncancelled_descendAll changes step rest arguments]
  | _ => simp [descend]

theorem uncancelled_descendAll (changes : ∀ step expr, Uncancelled (change step expr))
    (step : ExpansionStep) (rest : ExpansionSteps) (exprs : List Expr) :
    Uncancelled (descendAll change step rest exprs) := by
  match exprs with
  | [] => simp [descendAll]
  | expr :: exprs =>
    simp [descendAll, uncancelled_descend changes step rest expr,
      uncancelled_descendAll changes step rest exprs]

theorem uncancelled_descendBindings (changes : ∀ step expr, Uncancelled (change step expr))
    (step : ExpansionStep) (rest : ExpansionSteps)
    (bindings : List (String × Expr)) :
    Uncancelled (descendBindings change step rest bindings) := by
  match bindings with
  | [] => simp [descendBindings]
  | (name, value) :: bindings =>
    simp [descendBindings, uncancelled_descend changes step rest value,
      uncancelled_descendBindings changes step rest bindings]

theorem uncancelled_followBindings (changes : ∀ step expr, Uncancelled (change step expr))
    (step : ExpansionStep) (rest : ExpansionSteps)
    (bindings : List (String × Expr)) :
    Uncancelled (followBindings change step rest bindings) := by
  match bindings with
  | [] => simp [followBindings]
  | (name, value) :: bindings =>
    have later := uncancelled_followBindings changes step rest bindings
    simp only [followBindings]
    split
    next =>
      match rest with
      | [] => simp [changes, later]
      | next :: rest => simp [uncancelled_descend changes next rest value, later]
    next => simp [later]

end

end Descending

@[simp] theorem uncancelled_applyAll (kind : RefinementKind) (expr : Expr)
    (lists : List ExpansionSteps) : Uncancelled (refiner.applyAll kind expr lists) := by
  refine Uncancelled.foldlM (fun expr steps => ?_) lists expr
  unfold applyOne
  split
  next => simp [malformed]
  next => split <;> simp [malformed, uncancelled_descend, uncancelled_changeMember]

end Refiner

theorem FilteredRequest.uncancelled_projected (filtered : FilteredRequest) :
    Uncancelled filtered.projected := by
  have arranged : Uncancelled filtered.arranged := by
    unfold FilteredRequest.arranged
    dsimp only
    split <;> simp
  simp [projected, arranged, refined]

end QueryProjection
