import QueryProjection.Filter.Arrangement

set_option autoImplicit false

namespace QueryProjection

/-- One member step. The declaring type is the one that the member was looked up on. -/
structure PathStep where
  memberName : String
  declaringType : String
  memberType : DataType
  memberKind : MemberKind
  isCollection : Bool
  filter : Option ScopedFilter
  arrangement : Option Arrangement

def PathStep.element? (step : PathStep) : Option String :=
  step.memberType.typeName?

abbrev MemberPath := List PathStep

namespace MemberPath

def names (path : MemberPath) : List String :=
  path.map fun step => step.memberName

/-- Paths are told apart by the names of their members alone. -/
def same (left right : MemberPath) : Bool :=
  names left == names right

def startsWith (path start : MemberPath) : Bool :=
  (names start).isPrefixOf (names path)

def toText (path : MemberPath) : String :=
  "/".intercalate (names path)

def withOptions (filter : Option ScopedFilter) (arrangement : Option Arrangement) :
    MemberPath → MemberPath
  | [] => []
  | [last] => [{ last with filter := filter, arrangement := arrangement }]
  | step :: rest => step :: withOptions filter arrangement rest

end MemberPath

/-- The distinct paths of a request: one for every selected member, and one for every expansion that
has no expansion below it. -/
structure Forest where
  selects : List MemberPath
  expansions : List MemberPath

namespace Forest

def empty : Forest := ⟨[], []⟩

def addPath (paths : List MemberPath) (path : MemberPath) : List MemberPath :=
  if paths.any (MemberPath.same path) then paths else paths ++ [path]

def addSelect (forest : Forest) (path : MemberPath) : Forest :=
  { forest with selects := addPath forest.selects path }

def addExpansion (forest : Forest) (path : MemberPath) : Forest :=
  { forest with expansions := addPath forest.expansions path }

def samePaths : List MemberPath → List MemberPath → Bool
  | [], [] => true
  | path :: rest, path' :: rest' => MemberPath.same path path' && samePaths rest rest'
  | _, _ => false

def same (left right : Forest) : Bool :=
  samePaths left.selects right.selects && samePaths left.expansions right.expansions

end Forest

end QueryProjection
