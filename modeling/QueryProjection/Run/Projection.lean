import QueryProjection.Expansion.Refinement
import QueryProjection.Expr.ReservedNames
import QueryProjection.Forest.Resolution
import QueryProjection.Mapping.Projection
import QueryProjection.Provider.Basic
import QueryProjection.Request.Options
import QueryProjection.Settings.Configuration

set_option autoImplicit false

namespace QueryProjection

structure Request where
  mapping : Mapping
  options : RequestOptions
  settings : Settings

structure FilteredRequest where
  request : Request
  context : BindingContext
  sourceType : String
  query : Query

namespace Request

def model (request : Request) : String := request.options.model

def needsCount (request : Request) : Bool :=
  request.options.count || request.settings.pageSize.isSome

def checkSearch : Option String → Outcome Unit
  | some search => .error (.unsupported ("$search=" ++ search))
  | none => .ok ()

def sourceType (request : Request) (query : Query) : Outcome String := do
  let _ ← request.mapping.schema.get request.model
  let sourceType ← request.mapping.sourceType request.model
  if sourceType = query.elementType then return sourceType
  else .error (.mapping (request.model ++ " is mapped from " ++ sourceType ++ ", not from " ++
    query.elementType))

def filtered (request : Request) (context : BindingContext) (sourceType : String)
    (expression : Expr) : Outcome Expr :=
  match request.options.filter with
  | none => .ok expression
  | some filter => do
      let predicate ← filter.bind request.mapping.schema request.model context
      return expression.filteredBy (← request.mapping.predicateToSource predicate sourceType)

def applyFilter (request : Request) (query : Query) : Outcome FilteredRequest := do
  request.settings.limits.check request.options
  checkSearch request.options.search
  let sourceType ← request.sourceType query
  let context := request.settings.bindingContext query.provider.guardsNulls
  let expression ← request.filtered context sourceType query.expression
  return ⟨request, context, sourceType, { query with expression }⟩

/-- The request never takes more rows than a page has. -/
def take (request : Request) : Option Nat :=
  match request.options.top, request.settings.pageSize with
  | some top, some size => some (min top size)
  | some top, none => some top
  | none, size => size

def arrangement (request : Request) : Arrangement :=
  ⟨request.options.order, request.options.skip, request.take⟩

def nextPage? (request : Request) (count : Option Nat) : Option NextPage := do
  Feature.nextPage? request.options.skip request.options.top (← request.settings.pageSize)
    (← count)

end Request

namespace FilteredRequest

/-- Order, skip and top are stated of the model and carried over to the source as one lambda. -/
def arranged (filtered : FilteredRequest) : Outcome Expr :=
  let request := filtered.request
  if request.arrangement.isEmpty then .ok filtered.query.expression
  else do
    let rows : Parameter := ⟨"q", .collection .queryable (.named request.model)⟩
    let binder : Binder := ⟨request.mapping.schema, request.model, filtered.context⟩
    let body ← request.arrangement.applyTo binder (.parameter rows)
    let transformation ← request.mapping.lambdaToSource ⟨rows, body⟩
    return transformation.applyTo filtered.query.expression

def refined (filtered : FilteredRequest) (lists : List ExpansionSteps) (expr : Expr) :
    Outcome Expr := do
  let refiner : Refiner := ⟨filtered.request.mapping, filtered.context⟩
  refiner.applyAll .arrangement
    (← refiner.applyAll .filter expr (ExpansionSteps.endingInFilter lists))
    (ExpansionSteps.endingInArrangement lists)

def projected (filtered : FilteredRequest) : Outcome Query := do
  let request := filtered.request
  let mapping := request.mapping
  let forest ← Forest.build mapping.schema request.model request.options.clause
    filtered.context request.settings.limits.maxExpandDepth
  let includes ← Include.ofForest mapping.schema request.model forest
  let rows ← filtered.arranged
  let projection ← mapping.project filtered.sourceType request.model includes
    request.settings.parameters
  let expr ← filtered.refined (ExpansionSteps.ofForest forest) (rows.selected projection)
  return { filtered.query with expression := expr.withoutReservedNames }

end FilteredRequest

end QueryProjection
