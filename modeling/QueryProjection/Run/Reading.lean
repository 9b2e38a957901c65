import QueryProjection.Run.Basic

set_option autoImplicit false

namespace QueryProjection

namespace Feed

def readFrom (feed : Feed) (watched raced : Bool) (expression : Expr) :
    (fuel : Nat) → (continuation : Option String) → Run (List Value)
  | 0, _ => throw .endless
  | fuel + 1, continuation => do
      let cancelled ← Run.findsCancelled watched
      let page ← Run.ask raced (.nextPage expression continuation)
        (feed.nextPage expression continuation cancelled)
      match page.continuation with
      | none => return page.items
      | some next =>
          return page.items ++ (← readFrom feed watched raced expression fuel (some next))

def read (feed : Feed) (watched raced : Bool) (expression : Expr) : Run (List Value) :=
  feed.readFrom watched raced expression (feed.pageBound expression) none

end Feed

namespace Query

def toList (query : Query) : Run (List Value) :=
  Run.ask false (.execute query.expression) (query.provider.execute query.expression)

def readAll (query : Query) (watched raced : Bool) : Run (List Value) := do
  Run.stopIfCancelled watched
  match query.provider.feed? with
  | some feed => feed.read watched raced query.expression
  | none => query.toList

def count (query : Query) : Run Nat :=
  Run.ask false (.count query.expression) (query.provider.count query.expression)

def countThroughFeed (query : Query) (watched : Bool) : Run Nat :=
  match query.provider.feed? with
  | some feed => do
      Run.stopIfCancelled watched
      let cancelled ← Run.findsCancelled watched
      Run.ask watched (.feedCount query.expression) (feed.count query.expression cancelled)
  | none => query.count

end Query

end QueryProjection
