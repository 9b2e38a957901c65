import QueryProjection.Expr.Printer
import QueryProjection.Forest.Path

set_option autoImplicit false

namespace QueryProjection.Include

def nameAtDepth (depth : Nat) : String :=
  String.ofList ('i' :: List.replicate depth '0')

def rootParameter (rootType : String) : Parameter :=
  ⟨nameAtDepth 0, .named rootType⟩

def chain (schema : Schema) : (depth : Nat) → Expr → MemberPath → Outcome Expr
  | _, target, [] => .ok target
  | _, target, [step] => do
      let member ← schema.resolve step.declaringType step.memberName
      return .member target member.name member.ty
  | depth, target, step :: next :: rest => do
      let member ← schema.resolve step.declaringType step.memberName
      let access := Expr.member target member.name member.ty
      if member.ty.isCollection then
        let item : Parameter := ⟨nameAtDepth (depth + 1), member.ty.elementType⟩
        let body ← chain schema (depth + 1) (.parameter item) (next :: rest)
        return access.selected ⟨item, body⟩
      else chain schema depth access (next :: rest)

def ofPath (schema : Schema) (rootType : String) (path : MemberPath) : Outcome Lambda := do
  let root := rootParameter rootType
  return ⟨root, .convert (← chain schema 0 (.parameter root) path) .object⟩

def liesOnExpansions (schema : Schema) (expansions : List MemberPath) :
    MemberPath → MemberPath → Outcome Bool
  | _, [] => .ok true
  | before, step :: rest => do
      if (← schema.targetKind step.memberType) = .entity then
        let start := (step :: before).reverse
        if expansions.any fun expansion => MemberPath.startsWith expansion start then
          liesOnExpansions schema expansions (step :: before) rest
        else return false
      else liesOnExpansions schema expansions (step :: before) rest

def collect (schema : Schema) (rootType : String)
    (wanted : MemberPath → Outcome Bool) : List MemberPath → Outcome (List Lambda)
  | [] => .ok []
  | path :: rest => do
      if ← wanted path then
        let first ← ofPath schema rootType path
        return first :: (← collect schema rootType wanted rest)
      else collect schema rootType wanted rest

/-- One include for every expansion, then one for every selected path that only navigates where the
request expands. -/
def ofForest (schema : Schema) (rootType : String) (forest : Forest) :
    Outcome (List Lambda) := do
  let _ ← schema.get rootType
  let expansions ← collect schema rootType (fun _ => .ok true) forest.expansions
  let selects ←
    collect schema rootType (liesOnExpansions schema forest.expansions []) forest.selects
  return expansions ++ selects

def unexpected {α : Type} (expr : Expr) : Outcome α :=
  .error (.mapping ("unexpected include step " ++ expr.toText))

def membersOf : Expr → Outcome (List String)
  | .parameter _ => .ok []
  | .convert operand _ => membersOf operand
  | .member target name _ => do return (← membersOf target) ++ [name]
  | .call .select [sequence, .lambda _ body] _ => do
      return (← membersOf sequence) ++ (← membersOf body)
  | other => unexpected other

def membersRead (path : Lambda) : Outcome (List String) :=
  membersOf path.body

end QueryProjection.Include
