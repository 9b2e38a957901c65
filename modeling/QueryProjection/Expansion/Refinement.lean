import QueryProjection.Expansion.Options
import QueryProjection.Expr.Substitution
import QueryProjection.Mapping.Source

set_option autoImplicit false

namespace QueryProjection

inductive RefinementKind where
  | filter
  | arrangement
  deriving DecidableEq

/-- Where a change lands: on the sequence below a selection, or on the collection itself, whose
elements may be of the model type or of a mapped one. -/
inductive RefinementSite where
  | belowSelection
  | model
  | mapped
  deriving DecidableEq

structure Refiner where
  mapping : Mapping
  context : BindingContext

abbrev SequenceChange := RefinementSite → Expr → Outcome Expr

namespace Refiner

def malformed {α : Type} (detail : String) : Outcome α :=
  .error (.malformedExpansion detail)

/-- Whether a selection occurs along the chain of sequences. -/
def hasSelection : Expr → Bool
  | .call method arguments _ =>
      method == .select || match arguments with
        | [] => false
        | receiver :: _ => hasSelection receiver
  | _ => false

def changeSelected (change : Expr → Outcome Expr) : Expr → Outcome Expr
  | .call method [] _ => malformed (method.name ++ " without a source")
  | .call method (receiver :: rest) _ =>
      if hasSelection receiver then do
        return .apply method ((← changeSelected change receiver) :: rest)
      else if method = .select then do return .apply method ((← change receiver) :: rest)
      else .ok (.apply method (receiver :: rest))
  | expr => .ok expr

def changeSequence (change : SequenceChange) (step : ExpansionStep) (element : String)
    (value : Expr) : Outcome Expr :=
  -- Below a selection the elements are still those of the source.
  if hasSelection value then changeSelected (change .belowSelection) value
  else if value.type.isCollection then do
    let site := if value.type.typeName? = some element then RefinementSite.model else .mapped
    return (← change site value).coercedTo value.type.collectionKind?
  else malformed ("'" ++ step.memberName ++ "' is not projected as a collection")

def changeValue (change : SequenceChange) (step : ExpansionStep) (element : String) :
    Expr → Outcome Expr
  | .conditional test whenTrue whenFalse ty => do
      return .conditional test whenTrue (← changeSequence change step element whenFalse) ty
  | value => changeSequence change step element value

def filterChange (refiner : Refiner) (predicate : Lambda) : SequenceChange
  | .model, sequence => .ok (sequence.filteredBy predicate)
  | _, sequence =>
      match sequence.type.typeName? with
      | some sourceType => do
          return sequence.filteredBy (← refiner.mapping.predicateToSource predicate sourceType)
      | none =>
          .error (.mapping (sequence.toText ++ " is not a sequence of a mapped type"))

def arrangementChange (refiner : Refiner) (transform : Lambda) : SequenceChange
  | .belowSelection, sequence => do
      return (← refiner.mapping.lambdaToSource transform).applyTo sequence
  | .model, sequence => .ok (transform.applyTo (.apply .asQueryable [sequence]))
  | .mapped, sequence => do
      return (← refiner.mapping.lambdaToSource transform).applyTo
        (.apply .asQueryable [sequence])

def sequenceParameter (element : String) : Parameter :=
  ⟨"q", .collection .queryable (.named element)⟩

def transformOf (refiner : Refiner) (element : String) (arrangement : Arrangement) :
    Outcome Lambda := do
  let sequence := sequenceParameter element
  let binder : Binder := ⟨refiner.mapping.schema, element, refiner.context⟩
  return ⟨sequence, ← arrangement.applyTo binder (.parameter sequence)⟩

def changeOf (refiner : Refiner) (kind : RefinementKind) (step : ExpansionStep)
    (element : String) : Outcome SequenceChange :=
  match kind with
  | .filter =>
      match step.filter with
      | some filter => do
          return refiner.filterChange (← filter.bind refiner.mapping.schema)
      | none => malformed ("'" ++ step.memberName ++ "' has no filter")
  | .arrangement =>
      match step.arrangement with
      | some arrangement => do
          return refiner.arrangementChange (← refiner.transformOf element arrangement)
      | none => malformed ("'" ++ step.memberName ++ "' has no query options")

def changeMember (refiner : Refiner) (kind : RefinementKind) (step : ExpansionStep) (value : Expr) :
    Outcome Expr :=
  match step.memberType.typeName? with
  | some element => do
      changeValue (← refiner.changeOf kind step element) step element value
  | none => malformed ("'" ++ step.memberName ++ "' is not a navigation member")

def leadsTo (step : ExpansionStep) (name : String) (value : Expr) : Bool :=
  Text.sameName name step.memberName && value.type.listEquivalent step.memberType

mutual

def descend (change : ExpansionStep → Expr → Outcome Expr) (step : ExpansionStep)
    (rest : ExpansionSteps) : Expr → Outcome Expr
  | .source ty => .ok (.source ty)
  | .parameter param => .ok (.parameter param)
  | .constant value ty => .ok (.constant value ty)
  | .member target name ty => do return .member (← descend change step rest target) name ty
  | .construct ty bindings => do
      if ty.typeName? = some step.parentType then
        return .construct ty (← followBindings change step rest bindings)
      else return .construct ty (← descendBindings change step rest bindings)
  | .lambda param body => do return .lambda param (← descend change step rest body)
  | .call method arguments ty => do
      return .call method (← descendAll change step rest arguments) ty
  | .binary operator left right => do
      let first ← descend change step rest left
      return .binary operator first (← descend change step rest right)
  | .negation operand => do return .negation (← descend change step rest operand)
  | .conditional test whenTrue whenFalse ty => do
      let test ← descend change step rest test
      let first ← descend change step rest whenTrue
      return .conditional test first (← descend change step rest whenFalse) ty
  | .convert operand ty => do return .convert (← descend change step rest operand) ty
  | .function called arguments => do
      return .function called (← descendAll change step rest arguments)

def descendAll (change : ExpansionStep → Expr → Outcome Expr) (step : ExpansionStep)
    (rest : ExpansionSteps) : List Expr → Outcome (List Expr)
  | [] => .ok []
  | expr :: exprs => do
      let first ← descend change step rest expr
      return first :: (← descendAll change step rest exprs)

def descendBindings (change : ExpansionStep → Expr → Outcome Expr) (step : ExpansionStep)
    (rest : ExpansionSteps) : List (String × Expr) → Outcome (List (String × Expr))
  | [] => .ok []
  | (name, value) :: bindings => do
      let first ← descend change step rest value
      return (name, first) :: (← descendBindings change step rest bindings)

def followBindings (change : ExpansionStep → Expr → Outcome Expr) (step : ExpansionStep)
    (rest : ExpansionSteps) : List (String × Expr) → Outcome (List (String × Expr))
  | [] => .ok []
  | (name, value) :: bindings => do
      let first ←
        if leadsTo step name value then
          match rest with
          | [] => change step value
          | next :: later => descend change next later value
        else .ok value
      return (name, first) :: (← followBindings change step rest bindings)

end

def carries (kind : RefinementKind) (step : ExpansionStep) : Bool :=
  match kind with
  | .filter => step.hasFilter
  | .arrangement => step.hasArrangement

def applyOne (refiner : Refiner) (kind : RefinementKind) (expr : Expr) (steps : ExpansionSteps) :
    Outcome Expr :=
  match steps with
  | [] => malformed "empty expansion option list"
  | step :: rest =>
      if (steps.getLast?.map (carries kind)).getD false then
        descend (refiner.changeMember kind) step rest expr
      else malformed ("'" ++ ExpansionSteps.toText steps ++ "' carries no options to splice")

def applyAll (refiner : Refiner) (kind : RefinementKind) (expr : Expr)
    (lists : List ExpansionSteps) : Outcome Expr :=
  lists.foldlM (refiner.applyOne kind) expr

end Refiner

end QueryProjection
