import QueryProjection.Filter.Arrangement

set_option autoImplicit false

namespace QueryProjection

structure ClauseOf (Item : Type) where
  allSelected : Bool
  items : List Item

inductive ClauseItem where
  | path (segments : List String) (nested : Option (ClauseOf ClauseItem))
  | expand (segments : List String) (nested : Option (ClauseOf ClauseItem))
      (filter : Option Filter) (arrangement : Arrangement)
  | reference (segments : List String)
  | count (segments : List String)

abbrev Clause := ClauseOf ClauseItem

namespace ClauseItem

def isPath : ClauseItem → Bool
  | .path _ _ => true
  | _ => false

def isExpand : ClauseItem → Bool
  | .expand _ _ _ _ => true
  | _ => false

end ClauseItem

namespace Clause

def takesDefaults (clause : Clause) : Bool :=
  clause.allSelected || !clause.items.any ClauseItem.isPath

def itemsDepth : List ClauseItem → Nat
  | [] => 0
  | .expand segments nested _ _ :: rest =>
      let below := match nested with
        | some ⟨_, items⟩ => itemsDepth items
        | none => 0
      max (segments.length + below) (itemsDepth rest)
  | _ :: rest => itemsDepth rest

def depth (clause : Clause) : Nat :=
  itemsDepth clause.items

end Clause

end QueryProjection
