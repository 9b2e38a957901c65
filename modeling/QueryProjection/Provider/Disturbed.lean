import QueryProjection.Provider.Memory

set_option autoImplicit false

namespace QueryProjection

inductive Disturbance where
  | refuses (detail : String)
  | cancels
  | stalls
  deriving DecidableEq

structure Disturbances where
  execute : Option Disturbance
  count : Option Disturbance
  nextPage : Option Disturbance
  feedCount : Option Disturbance

def Disturbance.answer {α : Type} (outcome : (cancelled : Bool) → Outcome α) (cancelled : Bool) :
    Option Disturbance → Answer α
  | none => .immediate (outcome cancelled)
  | some (.refuses detail) => .immediate (.error (.provider detail))
  | some .cancels => ⟨true, some 0, outcome false⟩
  | some .stalls => ⟨true, none, outcome false⟩

namespace MemoryRows

def disturbedFeed (memory : MemoryRows) (on : Disturbances) : Feed where
  nextPage expression continuation cancelled :=
    Disturbance.answer (memory.nextPage expression continuation) cancelled on.nextPage
  count expression cancelled :=
    Disturbance.answer (memory.feedCount expression) cancelled on.feedCount
  pageBound := memory.pageBound

def disturbed (memory : MemoryRows) (on : Disturbances) (hasFeed guardsNulls : Bool) :
    Provider where
  execute expression :=
    Disturbance.answer (fun _ => memory.execute expression) false on.execute
  count expression :=
    Disturbance.answer (fun _ => memory.count expression) false on.count
  feed? := if hasFeed then some (memory.disturbedFeed on) else none
  guardsNulls := guardsNulls

end MemoryRows

end QueryProjection
