/-
Discovery page after page (`completion_wire.rs`): a host that asks for each
next page with the cursor of the one before.

What holds of one accepted page and the next request (`subjectPage_next`)
adds up to bounds on the whole paging (`Paging.bounds`).
-/
import ProviderSdk.DiscoveryProto3

namespace ProviderSdk

open Checks

/-! ## Requests -/

/-- A request `validate_discovery_request` accepts. -/
structure V1.DiscoverCompletionSubjectsRequest.WellFormed (r : V1.DiscoverCompletionSubjectsRequest)
    (context : V1.CompletionContext) : Prop where
  present : r.context = some context
  operationId : 1 ≤ context.operationId.length ∧ context.operationId.length ≤ 256
  pageSize : 1 ≤ r.pageSize ∧ r.pageSize ≤ maximumPageSize
  cursor : ∀ c, r.cursor = some c → CursorOk c
  sourceKey : ∃ k, context.sourceKey = some k ∧ k.WellFormed

theorem validateDiscoveryRequest_ok {r : V1.DiscoverCompletionSubjectsRequest} {context : V1.CompletionContext} :
    validateDiscoveryRequest r = .ok context ↔ r.WellFormed context := by
  have hid : ∀ c : V1.CompletionContext, ¬ c.operationId.isEmpty = true ↔ 1 ≤ c.operationId.length := by
    intro c
    rw [List.isEmpty_iff_length_eq_zero]
    omega
  simp only [validateDiscoveryRequest, bind_ok, okOr_ok, reject_ok, not_or, hid, gt_iff_lt, Nat.not_lt, exists_const,
    fromDiscovery_ok, validateRequest_ok, mapError_ok, key_ok, pure_ok]
  refine ⟨fun h => ?_, fun h => ⟨context, h.present, h.operationId, ⟨h.pageSize, h.cursor⟩, ?_⟩⟩
  · obtain ⟨_, hc, hid, ⟨hp, hcursor⟩, k, hk, hw, rfl⟩ := h
    exact ⟨hc, hid, hp, hcursor, k, hk, hw⟩
  · obtain ⟨k, hk, hw⟩ := h.sourceKey
    exact ⟨k, hk, hw, rfl⟩

/-! ## Pages -/

/-- The pages accepted one after another, each request but the first with the
cursor of the page before. -/
inductive Paging [ProstDiscovery] (account : Identity) :
    V1.DiscoverCompletionSubjectsRequest → List V1.CompletionSubjectPage → Prop
  | last {request : V1.DiscoverCompletionSubjectsRequest} {page : V1.CompletionSubjectPage}
    (h : validateCompletionSubjectPage page request account = .ok ()) : Paging account request [page]
  | more {request : V1.DiscoverCompletionSubjectsRequest} {page : V1.CompletionSubjectPage} {cursor : String}
    {pages : List V1.CompletionSubjectPage} (h : validateCompletionSubjectPage page request account = .ok ())
    (hc : page.nextCursor = some cursor) (hn : Paging account { request with cursor := some cursor } pages) :
    Paging account request (page :: pages)

section

variable [ProstDiscovery] {account : Identity} {request : V1.DiscoverCompletionSubjectsRequest}
  {page : V1.CompletionSubjectPage}

/-- What an accepted page says of the request it is for and the next one. -/
theorem subjectPage_next (h : validateCompletionSubjectPage page request account = .ok ()) :
    page.subjects.length ≤ request.pageSize.toNat ∧ (page.nextCursor = none ∨ request.cursor ≠ page.nextCursor) ∧
      ∀ cursor, page.nextCursor = some cursor → 1 ≤ page.subjects.length ∧
        ∀ context, validateDiscoveryRequest request = .ok context →
          validateDiscoveryRequest { request with cursor := some cursor } = .ok context := by
  obtain ⟨_, _, p, hs, ha⟩ := validateCompletionSubjectPage_ok.mp h
  have hlen : page.subjects.length = p.subjects.length := (mapM_ok.mp hs.subjects).length_eq
  have hnext := ha.next
  rw [hs.nextCursor] at hnext
  refine ⟨hlen ▸ ha.bounded, ?_, fun cursor hc => ⟨?_, fun context hr => ?_⟩⟩
  · cases hc : page.nextCursor with
    | none => exact .inl rfl
    | some cursor => exact .inr (hnext cursor hc).2.1
  · rw [hlen]
    exact List.length_pos_iff.mpr (hnext cursor hc).2.2
  · rw [validateDiscoveryRequest_ok] at hr ⊢
    refine ⟨hr.present, hr.operationId, hr.pageSize, fun c he => ?_, hr.sourceKey⟩
    cases he
    exact (hnext cursor hc).1

/-- **What paging comes to.** However many pages a provider sends, each next
request is valid as it stands, in the first one's context; no page hands back
the cursor it was asked for, nor has more subjects than the page size; and
there are at most one more pages than subjects. -/
theorem Paging.bounds {pages : List V1.CompletionSubjectPage} (h : Paging account request pages) :
    pages.length ≤ (pages.map (·.subjects.length)).sum + 1 ∧
    (∀ p ∈ pages, p.subjects.length ≤ request.pageSize.toNat) ∧
    (∀ context, validateDiscoveryRequest request = .ok context → ∀ p ∈ pages, ∀ cursor, p.nextCursor = some cursor →
      validateDiscoveryRequest { request with cursor := some cursor } = .ok context) ∧
    List.IsChain (fun asked next => next = none ∨ asked ≠ next) (request.cursor :: pages.map (·.nextCursor)) := by
  induction h with
  | last h =>
    obtain ⟨hsize, hnew, hnext⟩ := subjectPage_next h
    refine ⟨by simp, fun p hp => List.mem_singleton.mp hp ▸ hsize, fun context hr p hp cursor hc => ?_, ?_⟩
    · rw [List.mem_singleton.mp hp] at hc
      exact (hnext cursor hc).2 context hr
    · exact .cons_cons hnew (.singleton _)
  | @more request page cursor pages h hc hn ih =>
    obtain ⟨hsize, hnew, hnext⟩ := subjectPage_next h
    obtain ⟨hfull, hvalid⟩ := hnext cursor hc
    obtain ⟨hcount, hsizes, hrequests, hchain⟩ := ih
    refine ⟨?_, fun p hp => ?_, fun context hr p hp c hpc => ?_, ?_⟩
    · simp only [List.length_cons, List.map_cons, List.sum_cons]
      omega
    · rcases List.mem_cons.mp hp with rfl | hp
      · exact hsize
      · exact hsizes p hp
    · rcases List.mem_cons.mp hp with rfl | hp
      · exact (hnext c hpc).2 context hr
      · exact hrequests context (hvalid context hr) p hp c hpc
    · rw [List.map_cons]
      exact .cons_cons hnew (hc ▸ hchain)

end

/-! ## A paging of two pages -/

def pagingField : V1.CompletionSubjectField := ⟨"state:completion", "group:entry", ["unit:chapter"], true, false⟩

/-- A page of one subject. -/
def pagingPage (nextCursor : Option String) : V1.CompletionSubjectPage where
  library := some ⟨some Identity.sample.into, some ⟨"r1", ["subject:edition"], ["unit:chapter"], []⟩, [pagingField]⟩
  subjects := [⟨some ⟨some Identity.sample.into, [], "subject:edition", "Edition"⟩, [pagingField]⟩]
  nextCursor

def pagingContext : V1.CompletionContext := ⟨[1], some ⟨"fixture", [1]⟩⟩

theorem pagingPages_bounds :
    let pages := [pagingPage (some "next"), pagingPage none]
    Paging .sample ⟨some pagingContext, 1, none⟩ pages ∧
      pages.length ≤ (pages.map (·.subjects.length)).sum + 1 ∧
      validateDiscoveryRequest ⟨some pagingContext, 1, some "next"⟩ = .ok pagingContext := by
  intro pages
  have hrun : Paging .sample ⟨some pagingContext, 1, none⟩ pages :=
    .more (by decide +kernel) rfl (.last (by decide +kernel))
  obtain ⟨hcount, _, hrequests, _⟩ := hrun.bounds
  exact ⟨hrun, hcount, hrequests pagingContext rfl (pagingPage (some "next")) List.mem_cons_self "next" rfl⟩

end ProviderSdk
