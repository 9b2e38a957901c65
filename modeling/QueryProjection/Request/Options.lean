import QueryProjection.Request.Clause
import QueryProjection.Text.Basic
import QueryProjection.Url.Basic

set_option autoImplicit false

namespace QueryProjection

structure NextPage where
  skip : Nat
  top : Option Nat
  deriving DecidableEq

namespace NextPage

/-- Advances by a page; a request for no more rows than the page holds has no next page. -/
def after (skip top : Option Nat) (pageSize : Nat) : Option NextPage :=
  match top with
  | none => some ⟨skip.getD 0 + pageSize, none⟩
  | some limit =>
      if limit ≤ pageSize then none else some ⟨skip.getD 0 + pageSize, some (limit - pageSize)⟩

def isPaging (name : String) : Bool :=
  Text.sameName name "$top" || Text.sameName name "$skip" || Text.sameName name "$skiptoken"

def pagingPairs (page : NextPage) : List (String × String) :=
  (page.top.toList.map fun top => ("$top", toString top)) ++ [("$skip", toString page.skip)]

def link (page : NextPage) (request : Url) : Url :=
  let kept := request.queryPairs.filter fun pair => !isPaging pair.1
  request.withQueryPairs (kept ++ page.pagingPairs)

end NextPage

structure Feature where
  totalCount : Option Nat
  nextPage : Option NextPage
  nextLink : Option Url
  deriving DecidableEq

namespace Feature

def fresh : Feature := ⟨none, none, none⟩

/-- The page that follows the first `pageSize` rows after the skipped ones, when `count` rows are
too many for one page. -/
def nextPage? (skip top : Option Nat) (pageSize count : Nat) : Option NextPage :=
  let left := count - skip.getD 0
  let wanted := match top with
    | some limit => min left limit
    | none => left
  if wanted ≤ pageSize then none else NextPage.after skip top pageSize

/-- Keeps what an earlier run recorded when no page follows. -/
def withNextPage (feature : Feature) (uri : Option Url) : Option NextPage → Feature
  | some next => { feature with nextPage := some next, nextLink := uri.map next.link }
  | none => feature

end Feature

structure RequestOptions where
  model : String
  filter : Option Filter
  order : List OrderKey
  clause : Option Clause
  top : Option Nat
  skip : Option Nat
  count : Bool
  search : Option String
  uri : Option Url

namespace RequestOptions

def ofModel (model : String) : RequestOptions :=
  ⟨model, none, [], none, none, none, false, none, none⟩

end RequestOptions

end QueryProjection
