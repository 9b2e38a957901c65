import QueryProjection.Run.Request

set_option autoImplicit false

namespace QueryProjection

structure Session where
  mapping : Mapping
  options : RequestOptions
  settings : Option Settings
  current : Query
  last : Query
  state : RunState

inductive SessionStep where
  | rows
  | rowsCancellably
  | project
  | projectCancellably
  | readLast
  | readLastCancellably
  | chain
  | filterBy (predicate : Lambda)
  | setOptions (options : RequestOptions)
  | setSettings (settings : Option Settings)
  | cancel

inductive SessionResult where
  | rows (values : List Value)
  | projected (query : Query)
  | done

namespace Session

def ofQuery (mapping : Mapping) (options : RequestOptions) (settings : Option Settings)
    (query : Query) : Session :=
  ⟨mapping, options, settings, query, query, ⟨.idle, .fresh, []⟩⟩

def request (session : Session) : Request :=
  ⟨session.mapping, session.options, session.settings.getD .standard⟩

def run (session : Session) : SessionStep → Run SessionResult
  | .rows => .rows <$> session.request.rows session.current
  | .rowsCancellably =>
      .rows <$> session.request.rowsCancellably session.current session.settings.isSome
  | .project => .projected <$> session.request.project session.current
  | .projectCancellably =>
      .projected <$> session.request.projectCancellably session.current session.settings.isSome
  | .readLast => .rows <$> session.last.toList
  | .readLastCancellably => .rows <$> session.last.readAll true false
  | _ => pure .done

def update (session : Session) : SessionStep → Session
  | .chain => { session with current := session.last }
  | .filterBy predicate =>
      let expression := session.current.expression.filteredBy predicate
      { session with current := { session.current with expression } }
  | .setOptions options => { session with options }
  | .setSettings settings => { session with settings }
  | .cancel => { session with state := { session.state with token := .cancelled } }
  | _ => session

def afterResult (session : Session) : SessionResult → Session
  | .projected query => { session with last := query }
  | _ => session

def step (session : Session) (step : SessionStep) : Except Halt SessionResult × Session :=
  let session := session.update step
  match session.run step session.state with
  | .ok result state => (.ok result, { session.afterResult result with state })
  | .error halt state => (.error halt, { session with state })

end Session

end QueryProjection
