import QueryProjection.Forest.Path

set_option autoImplicit false

namespace QueryProjection

structure ExpansionStep where
  memberName : String
  parentType : String
  memberType : DataType
  filter : Option ScopedFilter
  arrangement : Option Arrangement

namespace ExpansionStep

def ofPathStep (step : PathStep) : ExpansionStep :=
  ⟨step.memberName, step.declaringType, step.memberType, step.filter,
    step.arrangement⟩

def withoutOptions (step : ExpansionStep) : ExpansionStep :=
  { step with filter := none, arrangement := none }

def hasFilter (step : ExpansionStep) : Bool := step.filter.isSome

def hasArrangement (step : ExpansionStep) : Bool :=
  step.arrangement.any fun arrangement => !arrangement.isEmpty

end ExpansionStep

abbrev ExpansionSteps := List ExpansionStep

namespace ExpansionSteps

def names (steps : ExpansionSteps) : List String :=
  steps.map fun step => step.memberName

def toText (steps : ExpansionSteps) : String :=
  "/".intercalate (names steps)

def ofForest (forest : Forest) : List ExpansionSteps :=
  forest.expansions.map fun path => path.map ExpansionStep.ofPathStep

/-- The starts of a list that end in a wanted step. Only the last step of each has options; those
before are given without theirs. -/
def startsEndingIn (wanted : ExpansionStep → Bool) :
    (before : ExpansionSteps) → ExpansionSteps → List ExpansionSteps
  | _, [] => []
  | before, step :: rest =>
      let longer := startsEndingIn wanted (before ++ [step.withoutOptions]) rest
      if wanted step then (before ++ [step]) :: longer else longer

def distinct (seen : List (List String)) : List ExpansionSteps → List ExpansionSteps
  | [] => []
  | steps :: rest =>
      if seen.contains (names steps) then distinct seen rest
      else steps :: distinct (names steps :: seen) rest

def listsEndingIn (wanted : ExpansionStep → Bool) (lists : List ExpansionSteps) :
    List ExpansionSteps :=
  distinct [] (lists.flatMap (startsEndingIn wanted []))

def endingInFilter (lists : List ExpansionSteps) : List ExpansionSteps :=
  listsEndingIn ExpansionStep.hasFilter lists

def endingInArrangement (lists : List ExpansionSteps) : List ExpansionSteps :=
  listsEndingIn ExpansionStep.hasArrangement lists

end ExpansionSteps

end QueryProjection
