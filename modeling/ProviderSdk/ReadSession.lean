/-
Reading a source again and again (`validation.rs`).

A read is in full, or goes on from the cursor an earlier one completed with.
A host that keeps the last such cursor can always read on: whatever a
provider streams, errors and all, its next request is valid, and nothing
else is valid with the cursor it keeps (`reads_go_on`).
-/
import ProviderSdk.ReadStream

namespace ProviderSdk

open Checks V1

/-! ## Requests -/

/-- The `match` on the mode of a read. -/
def checkCursor (mode : ReadMode) (priorCursor : List UInt8) : Except ValidationError Unit :=
  match mode with
  | .full => reject (priorCursor ≠ []) (.invalid "read mode cursor")
  | .incremental => reject (priorCursor = []) (.invalid "read mode cursor")
  | .unspecified => throw (.invalid "read mode cursor")

def readRequest (operationId : List UInt8) (sourceKey : Option Key) (mode : Int32) (priorCursor : List UInt8)
    (preferredBatchSize : UInt32) : Except ValidationError Unit := do
  reject operationId.isEmpty (.empty "read operation ID")
  key (← okOr sourceKey (.missing "read source key")) "read source key"
  reject (preferredBatchSize = 0) (.invalid "preferred batch size")
  checkCursor (← okOr (ReadMode.tryFrom mode) (.invalid "read mode")) priorCursor

def readCatalogRequest (request : ReadCatalogRequest) : Except ValidationError Unit :=
  readRequest request.operationId request.sourceKey request.mode request.priorCursor request.preferredBatchSize

def readStateRequest (request : ReadStateRequest) : Except ValidationError Unit :=
  readRequest request.operationId request.sourceKey request.mode request.priorCursor request.preferredBatchSize

/-- The mode of a read that goes on from a cursor, in full where it is empty. -/
def modeFrom (cursor : List UInt8) : ReadMode := if cursor = [] then .full else .incremental

/-- A request either check accepts: its mode is the one its cursor calls for. -/
structure V1.ReadRequest.WellFormed (r : ReadRequest) : Prop where
  operationId : r.operationId ≠ []
  sourceKey : ∃ k, r.sourceKey = some k ∧ k.WellFormed
  mode : ReadMode.tryFrom r.mode = some (modeFrom r.priorCursor)
  preferredBatchSize : r.preferredBatchSize ≠ 0

theorem checkCursor_ok {mode : ReadMode} {cursor : List UInt8} {u : Unit} :
    checkCursor mode cursor = .ok u ↔ mode = modeFrom cursor := by
  unfold checkCursor modeFrom
  by_cases hc : cursor = [] <;> cases mode <;> simp [hc, reject_ok, throw_ok]

theorem readRequest_ok {r : ReadRequest} {u : Unit} :
    readRequest r.operationId r.sourceKey r.mode r.priorCursor r.preferredBatchSize = .ok u ↔ r.WellFormed := by
  simp only [readRequest, bind_ok, reject_ok, List.isEmpty_iff, okOr_ok, key_ok, exists_const, checkCursor_ok]
  refine ⟨fun h => ?_, fun h => ?_⟩
  · obtain ⟨hid, k, hk, hw, hsize, mode, hm, rfl⟩ := h
    exact ⟨hid, ⟨k, hk, hw⟩, hm, hsize⟩
  · obtain ⟨hid, ⟨k, hk, hw⟩, hm, hsize⟩ := h
    exact ⟨hid, k, hk, hw, hsize, _, hm, rfl⟩

/-! ## Reads -/

variable {B : Type} {accept : ReadResponse B → StreamM Unit}

/-- The cursor of an event that completes a read. -/
def V1.ReadResponse.nextCursor (response : ReadResponse B) : Option (List UInt8) :=
  match response.event with
  | some (.completed completed) => some completed.nextCursor
  | _ => none

/-- The cursor a read completes with, if any, of the events its validator
accepts. -/
def readCursor (accept : ReadResponse B → StreamM Unit) (feed : List (ReadResponse B)) : Option (List UInt8) :=
  (Monitor.accepted (monitor accept) {} feed).findSome? (·.nextCursor)

/-- The cursor a host keeps after reads, none of them completed before the
first. -/
def keptCursor (accept : ReadResponse B → StreamM Unit) (reads : List (List (ReadResponse B))) : List UInt8 :=
  reads.foldl (fun cursor feed => (readCursor accept feed).getD cursor) []

/-- The request a host sends next. -/
def nextRead (operationId : List UInt8) (source : Key) (preferredBatchSize : UInt32) (cursor : List UInt8) :
    ReadRequest where
  operationId
  sourceKey := some source
  mode := (modeFrom cursor).number
  priorCursor := cursor
  preferredBatchSize

theorem keptCursor_concat {reads : List (List (ReadResponse B))} {feed : List (ReadResponse B)} :
    keptCursor accept (reads ++ [feed]) = (readCursor accept feed).getD (keptCursor accept reads) := by
  simp [keptCursor]

theorem nextRead_wellFormed {operationId : List UInt8} {source : Key} {preferredBatchSize : UInt32}
    (cursor : List UInt8) (hid : operationId ≠ []) (hs : source.WellFormed) (hsize : preferredBatchSize ≠ 0) :
    (nextRead operationId source preferredBatchSize cursor).WellFormed where
  operationId := hid
  sourceKey := ⟨source, rfl, hs⟩
  mode := ReadMode.tryFrom_some.mpr rfl
  preferredBatchSize := hsize

/-- An accepted event was accepted in some state. -/
theorem mem_accepted {feed : List (ReadResponse B)} {v : StreamValidator} {r : ReadResponse B}
    (h : r ∈ Monitor.accepted (monitor accept) v feed) : ∃ v', (monitor accept v' r).1.isOk = true := by
  induction feed generalizing v with
  | nil => cases h
  | cons a feed ih =>
    rw [Monitor.accepted] at h
    split at h
    · next ha =>
      rcases List.mem_cons.mp h with rfl | h
      · exact ⟨v, ha⟩
      · exact ih h
    · exact ih h

/-- A read completes with a cursor to go on from. -/
theorem readCursor_ne_nil {missing : String} {validateBatch : B → UInt64 → Except ValidationError Unit}
    {feed : List (ReadResponse B)} {cursor : List UInt8}
    (h : readCursor (StreamValidator.accept missing validateBatch) feed = some cursor) : cursor ≠ [] := by
  obtain ⟨response, hm, hc⟩ := List.exists_of_findSome?_eq_some h
  obtain ⟨v, hok⟩ := mem_accepted hm
  obtain ⟨event⟩ := response
  rcases event with _ | event
  · cases hc
  cases event with
  | completed completed =>
    cases hc
    rw [monitor_accept] at hok
    cases ht : v.terminal with
    | true => simp [ht] at hok
    | false =>
      simp only [ht, Bool.false_eq_true, if_false, isOk_iff, validateCompleted, bind_ok, reject_ok,
        List.isEmpty_iff] at hok
      exact hok.choose_spec.choose_spec.1
  | _ => cases hc

/-- The cursor kept is the last one a read completed with. -/
theorem keptCursor_cases (accept : ReadResponse B → StreamM Unit) (reads : List (List (ReadResponse B))) :
    (keptCursor accept reads = [] ∧ ∀ feed ∈ reads, readCursor accept feed = none) ∨
      ∃ pre feed post, reads = pre ++ feed :: post ∧ readCursor accept feed = some (keptCursor accept reads) ∧
        ∀ feed ∈ post, readCursor accept feed = none := by
  induction reads using List.reverseRecOn with
  | nil => exact .inl ⟨rfl, by simp⟩
  | append_singleton reads feed ih =>
    rw [keptCursor_concat]
    cases hc : readCursor accept feed with
    | some cursor => exact .inr ⟨reads, feed, [], rfl, hc, by simp⟩
    | none =>
      rcases ih with ⟨hnil, hnone⟩ | ⟨pre, last, post, rfl, hlast, hnone⟩
      · refine .inl ⟨hnil, fun f hf => ?_⟩
        rcases List.mem_append.mp hf with hf | hf
        · exact hnone f hf
        · rw [List.mem_singleton.mp hf, hc]
      · refine .inr ⟨pre, last, post ++ [feed], by simp, hlast, fun f hf => ?_⟩
        rcases List.mem_append.mp hf with hf | hf
        · exact hnone f hf
        · rw [List.mem_singleton.mp hf, hc]

/-- What a host is promised that reads a source again after other reads. -/
structure GoesOn (accept : ReadResponse B → StreamM Unit) (check : ReadRequest → Except ValidationError Unit)
    (reads : List (List (ReadResponse B))) (next : ReadRequest) : Prop where
  valid : check next = .ok ()
  /-- With the cursor kept, a read of the other mode is refused. -/
  only : ∀ request, check request = .ok () → request.priorCursor = next.priorCursor → request.mode = next.mode
  /-- It reads in full exactly as long as no read completed. -/
  full : next.mode = ReadMode.full.number ↔ ∀ feed ∈ reads, readCursor accept feed = none
  /-- Then it goes on from the last one that did. -/
  last : next.mode = ReadMode.full.number ∨ ∃ pre feed post, reads = pre ++ feed :: post ∧
    readCursor accept feed = some next.priorCursor ∧ ∀ feed ∈ post, readCursor accept feed = none

theorem goesOn {missing : String} {validateBatch : B → UInt64 → Except ValidationError Unit}
    {check : ReadRequest → Except ValidationError Unit} (hcheck : ∀ r, check r = .ok () ↔ r.WellFormed)
    {operationId : List UInt8} {source : Key} {preferredBatchSize : UInt32} (hid : operationId ≠ [])
    (hs : source.WellFormed) (hsize : preferredBatchSize ≠ 0) (reads : List (List (ReadResponse B))) :
    GoesOn (StreamValidator.accept missing validateBatch) check reads (nextRead operationId source preferredBatchSize
      (keptCursor (StreamValidator.accept missing validateBatch) reads)) := by
  have hnext := nextRead_wellFormed (keptCursor (StreamValidator.accept missing validateBatch) reads) hid hs hsize
  have hmode : ∀ cursor, (modeFrom cursor).number = ReadMode.full.number ↔ cursor = [] := by
    intro cursor
    unfold modeFrom
    by_cases hc : cursor = [] <;> simp [hc, ReadMode.number]
  have hcases := keptCursor_cases (StreamValidator.accept missing validateBatch) reads
  refine ⟨(hcheck _).mpr hnext, fun request hr hc => ?_, ?_, ?_⟩
  · have hr := ((hcheck request).mp hr).mode
    rw [ReadMode.tryFrom_some, hc] at hr
    exact hr
  · refine (hmode _).trans ⟨fun hnil => ?_, fun hnone => ?_⟩
    · rcases hcases with ⟨_, hnone⟩ | ⟨_, feed, _, _, hlast, _⟩
      · exact hnone
      · exact absurd hnil (readCursor_ne_nil hlast)
    · rcases hcases with ⟨hnil, _⟩ | ⟨pre, feed, post, he, hlast, _⟩
      · exact hnil
      · rw [hnone feed (by simp [he])] at hlast
        cases hlast
  · rcases hcases with ⟨hnil, _⟩ | hlast
    · exact .inl ((hmode _).mpr hnil)
    · exact .inr hlast

/-- **Reads go on.** Whatever a provider streamed in earlier reads of a
source, errors and all, the next request a host sends with the cursor it kept
is valid, and a request of the other mode is not. It reads in full exactly as
long as no read completed, and then goes on from the last one that did. -/
theorem reads_go_on (operationId : List UInt8) (source : Key) (preferredBatchSize : UInt32) (hid : operationId ≠ [])
    (hs : source.WellFormed) (hsize : preferredBatchSize ≠ 0) (catalog : List (List ReadCatalogResponse))
    (state : List (List ReadStateResponse)) :
    GoesOn CatalogStreamValidator.accept readCatalogRequest catalog
        (nextRead operationId source preferredBatchSize (keptCursor CatalogStreamValidator.accept catalog)) ∧
      GoesOn StateStreamValidator.accept readStateRequest state
        (nextRead operationId source preferredBatchSize (keptCursor StateStreamValidator.accept state)) :=
  ⟨goesOn (fun _ => readRequest_ok) hid hs hsize catalog, goesOn (fun _ => readRequest_ok) hid hs hsize state⟩

/-- A read in full that fails, one that completes, and one that is cut off. -/
def sampleFeeds {B : Type} : List (List (ReadResponse B)) :=
  [[⟨some .cancelled⟩], [⟨some (.heartbeat ⟨[0]⟩)⟩, ⟨some (.completed ⟨[7], [1]⟩)⟩], [⟨some (.completed ⟨[], [1]⟩)⟩]]

theorem sampleFeeds_go_on :
    keptCursor CatalogStreamValidator.accept sampleFeeds = [7] ∧
      GoesOn CatalogStreamValidator.accept readCatalogRequest sampleFeeds
        (nextRead [0] ⟨"source", [1]⟩ 100 (keptCursor CatalogStreamValidator.accept sampleFeeds)) := by
  have hsource : Key.WellFormed ⟨"source", [1]⟩ := ⟨⟨by decide, by decide +kernel⟩, by decide⟩
  exact ⟨by decide +kernel, (reads_go_on [0] _ 100 (by decide) hsource (by decide) sampleFeeds []).1⟩

end ProviderSdk
