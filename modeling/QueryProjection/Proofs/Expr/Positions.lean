import Mathlib.Data.List.Forall2
import QueryProjection.Proofs.Expr.Subterms

set_option autoImplicit false

namespace QueryProjection

/-- The index of a child, then of a child of that child, and so on. -/
abbrev Position := List Nat

namespace Expr

def children : Expr → List Expr
  | .source _ | .parameter _ | .constant _ _ => []
  | .member target _ _ => [target]
  | .construct _ bindings => bindings.map fun binding => binding.2
  | .lambda _ body => [body]
  | .call _ arguments _ => arguments
  | .binary _ left right => [left, right]
  | .negation operand => [operand]
  | .conditional test whenTrue whenFalse _ => [test, whenTrue, whenFalse]
  | .convert operand _ => [operand]
  | .function _ arguments => arguments

def withChildren : Expr → List Expr → Expr
  | .member _ name ty, [target] => .member target name ty
  | .construct ty bindings, values => .construct ty ((bindings.map fun binding => binding.1).zip values)
  | .lambda param _, [body] => .lambda param body
  | .call method _ ty, arguments => .call method arguments ty
  | .binary operator _ _, [left, right] => .binary operator left right
  | .negation _, [operand] => .negation operand
  | .conditional _ _ _ ty, [test, whenTrue, whenFalse] => .conditional test whenTrue whenFalse ty
  | .convert _ ty, [operand] => .convert operand ty
  | .function called _, arguments => .function called arguments
  | expr, _ => expr

mutual

/-- Puts new expressions in the place of what stands at some positions. -/
def replaceAt (new : Position → Option Expr) : Expr → Expr
  | .source ty => (new []).getD (.source ty)
  | .parameter param => (new []).getD (.parameter param)
  | .constant value ty => (new []).getD (.constant value ty)
  | .member target name ty =>
      (new []).getD (.member (replaceAt (fun position => new (0 :: position)) target) name ty)
  | .construct ty bindings =>
      (new []).getD
        (.construct ty (replaceBindingsAt (fun index position => new (index :: position)) bindings))
  | .lambda param body =>
      (new []).getD (.lambda param (replaceAt (fun position => new (0 :: position)) body))
  | .call method arguments ty =>
      (new []).getD
        (.call method (replaceAllAt (fun index position => new (index :: position)) arguments) ty)
  | .binary operator left right =>
      (new []).getD (.binary operator (replaceAt (fun position => new (0 :: position)) left)
        (replaceAt (fun position => new (1 :: position)) right))
  | .negation operand =>
      (new []).getD (.negation (replaceAt (fun position => new (0 :: position)) operand))
  | .conditional test whenTrue whenFalse ty =>
      (new []).getD (.conditional (replaceAt (fun position => new (0 :: position)) test)
        (replaceAt (fun position => new (1 :: position)) whenTrue)
        (replaceAt (fun position => new (2 :: position)) whenFalse) ty)
  | .convert operand ty =>
      (new []).getD (.convert (replaceAt (fun position => new (0 :: position)) operand) ty)
  | .function called arguments =>
      (new []).getD
        (.function called (replaceAllAt (fun index position => new (index :: position)) arguments))

def replaceAllAt (new : Nat → Position → Option Expr) : List Expr → List Expr
  | [] => []
  | expr :: rest => replaceAt (new 0) expr :: replaceAllAt (fun index => new (index + 1)) rest

def replaceBindingsAt (new : Nat → Position → Option Expr) :
    List (String × Expr) → List (String × Expr)
  | [] => []
  | (name, expr) :: rest =>
      (name, replaceAt (new 0) expr) :: replaceBindingsAt (fun index => new (index + 1)) rest

end

theorem replaceBindingsAt_eq (new : Nat → Position → Option Expr) (bindings : List (String × Expr)) :
    replaceBindingsAt new bindings = (bindings.map fun binding => binding.1).zip
      (replaceAllAt new (bindings.map fun binding => binding.2)) := by
  induction bindings generalizing new with
  | nil => rfl
  | cons binding rest ih => simp [replaceBindingsAt, replaceAllAt, ih]

theorem replaceAt_eq (new : Position → Option Expr) (expr : Expr) :
    expr.replaceAt new = (new []).getD (expr.withChildren
      (replaceAllAt (fun index position => new (index :: position)) expr.children)) := by
  cases expr <;>
    simp only [replaceAt, replaceBindingsAt_eq, replaceAllAt, children, withChildren]

theorem sizeOf_lt_of_mem_children {expr child : Expr} (isChild : child ∈ expr.children) :
    sizeOf child < sizeOf expr := by
  cases expr with
  | source _ | parameter _ | constant _ _ => simp [children] at isChild
  | construct ty bindings =>
    obtain ⟨⟨name, value⟩, isBinding, rfl⟩ := List.mem_map.1 isChild
    have smaller := List.sizeOf_lt_of_mem isBinding
    simp only [Prod.mk.sizeOf_spec, construct.sizeOf_spec] at smaller ⊢
    omega
  | call _ arguments _ | function _ arguments =>
    have smaller : sizeOf child < sizeOf arguments := List.sizeOf_lt_of_mem isChild
    simp only [call.sizeOf_spec, function.sizeOf_spec]
    omega
  | conditional _ _ _ _ =>
    simp only [children, List.mem_cons, List.not_mem_nil, or_false] at isChild
    rcases isChild with rfl | rfl | rfl <;> simp only [conditional.sizeOf_spec] <;> omega
  | binary _ _ _ =>
    simp only [children, List.mem_cons, List.not_mem_nil, or_false] at isChild
    rcases isChild with rfl | rfl <;> simp only [binary.sizeOf_spec] <;> omega
  | member _ _ _ | lambda _ _ | negation _ | convert _ _ =>
    cases List.mem_singleton.1 isChild
    simp only [member.sizeOf_spec, lambda.sizeOf_spec, negation.sizeOf_spec, convert.sizeOf_spec]
    omega

theorem child_induction {holds : Expr → Prop}
    (node : ∀ expr, (∀ child ∈ expr.children, holds child) → holds expr) (expr : Expr) :
    holds expr :=
  node expr fun child _ => child_induction node child
termination_by sizeOf expr
decreasing_by exact sizeOf_lt_of_mem_children ‹_›

theorem withChildren_children (expr : Expr) : expr.withChildren expr.children = expr := by
  cases expr with
  | construct ty bindings =>
    simp only [withChildren, children]
    congr 1
    simpa using List.zip_unzip bindings
  | _ => rfl

theorem replaceAllAt_eq_self {new : Nat → Position → Option Expr} {exprs : List Expr}
    (same : ∀ (index : Nat) (expr : Expr), exprs[index]? = some expr →
      expr.replaceAt (new index) = expr) :
    replaceAllAt new exprs = exprs := by
  induction exprs generalizing new with
  | nil => rfl
  | cons expr rest ih =>
    have first := same 0 expr rfl
    have others := ih fun index other isOther => same (index + 1) other isOther
    rw [replaceAllAt, first, others]

theorem replaceAt_eq_self {new : Position → Option Expr} (expr : Expr)
    (none_ : ∀ position, new position = none) : expr.replaceAt new = expr := by
  induction expr using child_induction generalizing new with
  | node expr ih =>
    rw [replaceAt_eq, none_ [], Option.getD_none, replaceAllAt_eq_self, withChildren_children]
    intro index child isChild
    exact ih child (List.mem_of_getElem? isChild) fun position => none_ (index :: position)

def replacedInTurn (first : Position → Option Expr) (others : Nat → Position → Option Expr) :
    Nat → Position → Option Expr
  | 0 => first
  | index + 1 => others index

theorem exists_replaceAllAt {α : Type} (value : α → Expr) {related : α → Expr → Prop}
    {suits : α → (Position → Option Expr) → Prop} {items : List α} {results : List Expr}
    (each : ∀ item ∈ items, ∀ result, related item result →
      ∃ new, result = (value item).replaceAt new ∧ suits item new)
    (all : List.Forall₂ related items results) :
    ∃ news, results = replaceAllAt news (items.map value) ∧
      (∀ (index : Nat) (item : α), items[index]? = some item → suits item (news index)) ∧
      ∀ (index : Nat), items[index]? = none → ∀ position, news index position = none := by
  induction all with
  | nil => exact ⟨fun _ _ => none, rfl, by simp, fun _ _ _ => rfl⟩
  | cons isFirst _ ih =>
    obtain ⟨first, others⟩ := List.forall_mem_cons.1 each
    obtain ⟨new, rfl, suitsFirst⟩ := first _ isFirst
    obtain ⟨news, rfl, suitsRest, outside⟩ := ih others
    refine ⟨replacedInTurn new news, rfl, ?_, ?_⟩
    · rintro (_ | index) item isItem
      · cases isItem
        exact suitsFirst
      · exact suitsRest index item isItem
    · rintro (_ | index) missing
      · simp at missing
      · exact outside index missing

theorem subterms_subset_of_mem_children {expr child : Expr} (isChild : child ∈ expr.children) :
    child.subterms ⊆ expr.subterms := by
  intro node isNode
  cases expr with
  | source _ | parameter _ | constant _ _ => simp [children] at isChild
  | construct ty bindings =>
    obtain ⟨binding, isBinding, rfl⟩ := List.mem_map.1 isChild
    exact List.mem_cons_of_mem _ (mem_bindingSubterms.2 ⟨binding, isBinding, isNode⟩)
  | call _ arguments _ | function _ arguments =>
    exact List.mem_cons_of_mem _ (mem_allSubterms.2 ⟨child, isChild, isNode⟩)
  | conditional _ _ _ _ =>
    simp only [children, List.mem_cons, List.not_mem_nil, or_false] at isChild
    rcases isChild with rfl | rfl | rfl <;> simp [subterms, isNode]
  | binary _ _ _ =>
    simp only [children, List.mem_cons, List.not_mem_nil, or_false] at isChild
    rcases isChild with rfl | rfl <;> simp [subterms, isNode]
  | member _ _ _ | lambda _ _ | negation _ | convert _ _ =>
    cases List.mem_singleton.1 isChild
    simp [subterms, isNode]

end Expr

end QueryProjection
