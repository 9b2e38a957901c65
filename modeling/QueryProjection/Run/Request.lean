import QueryProjection.Run.Projection
import QueryProjection.Run.Reading

set_option autoImplicit false

namespace QueryProjection.Request

def conclude (filtered : FilteredRequest) (count : Option Nat) : Run Query := do
  let request := filtered.request
  if request.options.count then
    Run.record fun feature => { feature with totalCount := count }
  -- A projection that fails leaves the page that was recorded before.
  let query ← Run.ofOutcome filtered.projected
  Run.record fun feature => feature.withNextPage request.options.uri (request.nextPage? count)
  return query

def countIf (needed : Bool) (count : Run Nat) : Run (Option Nat) :=
  if needed then some <$> count else pure none

def project (request : Request) (query : Query) : Run Query := do
  let filtered ← Run.ofOutcome (request.applyFilter query)
  conclude filtered (← countIf request.needsCount filtered.query.count)

def rows (request : Request) (query : Query) : Run (List Value) := do
  (← request.project query).toList

/-- As `project`, counting through the feed. A cancellation up to the end of the count leaves
everything as it was. -/
def projectCancellably (request : Request) (query : Query) (watched : Bool) : Run Query := do
  Run.stopIfCancelled watched
  let filtered ← Run.ofOutcome (request.applyFilter query)
  let count ← countIf request.needsCount (filtered.query.countThroughFeed watched)
  Run.stopIfCancelled watched
  conclude filtered count

def rowsCancellably (request : Request) (query : Query) (watched : Bool) : Run (List Value) := do
  let projected ← request.projectCancellably query watched
  Run.stopIfCancelled watched
  projected.readAll watched watched

end QueryProjection.Request
