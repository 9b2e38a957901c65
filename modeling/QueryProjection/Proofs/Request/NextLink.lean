import QueryProjection.Proofs.Url.Form
import QueryProjection.Request.Options

set_option autoImplicit false

namespace QueryProjection.NextPage

variable (page : NextPage) (request : Url)

theorem isPaging_pagingPairs : ∀ pair ∈ page.pagingPairs, isPaging pair.1 = true := by
  have isTop : isPaging "$top" = true := by decide
  have isSkip : isPaging "$skip" = true := by decide
  unfold pagingPairs
  rw [List.forall_mem_append, List.forall_mem_singleton, List.forall_mem_map]
  exact ⟨fun _ _ => isTop, isSkip⟩

theorem queryPairs_link :
    (page.link request).queryPairs =
      (request.queryPairs.filter fun pair => !isPaging pair.1) ++ page.pagingPairs :=
  Form.decode_encode _

theorem filter_queryPairs_link :
    ((page.link request).queryPairs.filter fun pair => !isPaging pair.1) =
      request.queryPairs.filter fun pair => !isPaging pair.1 := by
  have paging : page.pagingPairs.filter (fun pair => !isPaging pair.1) = [] := by
    rw [List.filter_eq_nil_iff]
    intro pair isPair
    simp [isPaging_pagingPairs page pair isPair]
  rw [queryPairs_link, List.filter_append, List.filter_filter, paging, List.append_nil]
  simp only [Bool.and_self]

theorem link_link (next : NextPage) : next.link (page.link request) = next.link request := by
  have relinked : next.link (page.link request) =
      request.withQueryPairs
        (((page.link request).queryPairs.filter fun pair => !isPaging pair.1) ++ next.pagingPairs) := rfl
  rw [relinked, filter_queryPairs_link]
  rfl

theorem link_foldl (pages : List NextPage) (last : NextPage) :
    last.link (pages.foldl (fun address page => page.link address) request) = last.link request := by
  induction pages generalizing request with
  | nil => rfl
  | cons page rest ih => rw [List.foldl_cons, ih, link_link]

/-- A next link carries over all pairs of the request that are not about paging, in their order, then
the paging of its page; every other part is that of the request. -/
theorem link_carries_over :
    ((page.link request).queryPairs =
        (request.queryPairs.filter fun pair =>
          !(["$top", "$skip", "$skiptoken"].any fun name => Text.sameName pair.1 name)) ++
        (match page.top with
          | some top => [("$top", toString top)]
          | none => []) ++
        [("$skip", toString page.skip)]) ∧
      { page.link request with query := request.query } = request ∧
      (∀ next : NextPage, next.link (page.link request) = next.link request) ∧
      ∀ (pages : List NextPage) (last : NextPage),
        last.link (pages.foldl (fun address page => page.link address) request) =
          last.link request := by
  refine ⟨?_, rfl, link_link page request, link_foldl request⟩
  have kept (name : String) :
      isPaging name = ["$top", "$skip", "$skiptoken"].any fun other => Text.sameName name other := by
    simp [isPaging, Bool.or_assoc]
  simp only [queryPairs_link, kept, pagingPairs]
  cases page.top <;> simp

example :
    (link ⟨2, some 3⟩ ⟨"http", "localhost", "/parents",
        some "$filter=Name%20eq%20'a'&$top=5&$count=true", none⟩).toText =
      "http://localhost/parents?%24filter=Name+eq+%27a%27&%24count=true&%24top=3&%24skip=2" := by
  decide +kernel

end QueryProjection.NextPage
