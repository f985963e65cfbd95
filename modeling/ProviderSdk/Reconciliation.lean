/-
Reconciling a write by a targeted read (`validation.rs`).

An indeterminate write is settled by reading its fields back, with its
idempotency key. The read validator wants keys of 16 bytes; the write
validator admits any key that is not empty.
-/
import ProviderSdk.Proto3

namespace ProviderSdk

open Checks V1

section

variable [Prost]

/-- The read that reconciles a write. -/
def reconciliationRead (w : WriteTargetedStateRequest) (limit : UInt64) : ReadTargetedStateRequest where
  operationId := w.operationId
  sourceKey := w.sourceKey
  subject := w.subject
  fields := w.intents.filterMap (·.field)
  maximumResponseBytes := limit
  reconciliationIdempotencyKey := w.idempotencyKey

/-- The intents of an accepted write name their fields. -/
theorem V1.WriteTargetedStateRequest.Accepted.fields {capability : TargetedStateWriteCapability}
    {w : WriteTargetedStateRequest} (h : w.Accepted capability) :
    w.intents.map (·.field) = (w.intents.filterMap (·.field)).map some := by
  have hsome : ∀ l : List TargetedStateWriteIntent, (∀ i ∈ l, ∃ f, i.field = some f) →
      l.map (·.field) = (l.filterMap (·.field)).map some := fun l => by
    induction l with
    | nil => exact fun _ => rfl
    | cons i l ih =>
      intro hl
      obtain ⟨f, hf⟩ := hl i (by simp)
      rw [List.filterMap_cons_some hf, List.map_cons, List.map_cons, ← ih fun i hi => hl i (by simp [hi]), hf]
  refine hsome _ fun i hi => ?_
  obtain ⟨f, _, hf, _⟩ := (h.supported i hi).supported
  exact ⟨f, hf⟩

/-- The fields of an accepted write are told apart by their bytes. -/
theorem V1.WriteTargetedStateRequest.Accepted.fields_distinct {capability : TargetedStateWriteCapability}
    {w : WriteTargetedStateRequest} (h : w.Accepted capability) :
    ((w.intents.filterMap (·.field)).map Prost.encodeToVec).Nodup := by
  have he : (w.intents.map fun i => encodeField i.field) =
      (w.intents.filterMap (·.field)).map Prost.encodeToVec := by
    have hmap := congrArg (List.map encodeField) h.fields
    simpa [Function.comp_def, encodeField] using hmap
  rw [← he]
  exact h.distinct

/-- **Which writes can be reconciled.** Whatever an accepted write is, the
read that reconciles it is accepted exactly when its key has 16 bytes. -/
theorem reconciliationRead_iff {writes : TargetedStateWriteCapability} {reads : TargetedStateReadCapability}
    {w : WriteTargetedStateRequest} {limit : UInt64} (hw : targetedStateWriteRequest w writes = .ok ())
    (hfields : w.intents.length ≤ reads.maximumFields.toNat) (hpos : 1 ≤ limit)
    (hlimit : limit ≤ reads.maximumResponseBytes) :
    targetedStateReadRequest (reconciliationRead w limit) reads = .ok () ↔ w.idempotencyKey.length = 16 := by
  have hw := targetedStateWriteRequest_ok.mp hw
  have hlen : (w.intents.filterMap (·.field)).length = w.intents.length := by
    simpa using (congrArg List.length hw.fields).symm
  have hne : w.intents.length ≠ 0 := fun h => hw.intents.1 (List.length_eq_zero_iff.mp h)
  rw [targetedStateReadRequest_ok]
  refine ⟨fun h => h.reconciliation hw.idempotencyKey, fun h16 => ?_⟩
  refine ⟨⟨?_, ?_⟩, hw.operationId, hw.sourceKey, hw.subject, ⟨?_, hlen ▸ hfields⟩, ⟨?_, hlimit⟩,
    fun _ => h16, fun f hf => ?_, hw.fields_distinct⟩
  · intro h
    rw [h] at hfields
    exact hne (Nat.le_zero.mp hfields)
  · intro h
    rw [h] at hlimit
    exact absurd (UInt64.le_trans hpos hlimit) (by decide)
  · intro h
    have hnil : w.intents.filterMap (·.field) = [] := h
    rw [hnil] at hlen
    exact hne hlen.symm
  · intro h
    have hzero : limit = 0 := h
    rw [hzero] at hpos
    exact absurd hpos (by decide)
  · obtain ⟨i, hi, hf⟩ := List.mem_filterMap.mp hf
    obtain ⟨field, _, hfield, hwf, _⟩ := (hw.supported i hi).supported
    rw [hf] at hfield
    cases hfield
    exact hwf

end

def sampleTerm : Term := ⟨"sample", "field"⟩

def sampleField : StateField := ⟨some sampleTerm, none⟩

def sampleReads : TargetedStateReadCapability := ⟨1, 4096⟩

def sampleWrites : TargetedStateWriteCapability where
  fields := [⟨some sampleField, true, true⟩]
  mayCreateSourceMembership := false
  preconditionMode := 2
  idempotencyMode := 2
  maximumFields := 1
  maximumRequestBytes := 4096
  maximumResponseBytes := 4096
  maximumReceiptBytes := 1024

def sampleWrite (idempotencyKey : List UInt8) : WriteTargetedStateRequest where
  operationId := [1]
  sourceKey := some ⟨"sample", [1]⟩
  subject := some ⟨some (.providerItemKey ⟨"sample", [2]⟩)⟩
  idempotencyKey
  expectedMembership := 1
  precondition := []
  allowCreateMembership := false
  intents := [⟨some sampleField, some .clear⟩]
  maximumReceiptBytes := 1024
  maximumResponseBytes := 4096

/-- A write under a 16-byte key can be reconciled. -/
theorem sampleWrite_reconciled :
    targetedStateReadRequest (reconciliationRead (sampleWrite (List.replicate 16 7)) 4096) sampleReads =
      .ok () := by
  have hw : targetedStateWriteRequest (sampleWrite (List.replicate 16 7)) sampleWrites = .ok () := rfl
  exact (reconciliationRead_iff hw (by decide) (by decide) (by decide)).mpr (by decide)

/-- A write under the 17-byte key `sync-action-empty` is accepted, and the
read that would reconcile it is not. -/
theorem sampleWrite_not_reconciled :
    let w := sampleWrite (Proto3.utf8 "sync-action-empty")
    targetedStateWriteRequest w sampleWrites = .ok () ∧ w.intents.length ≤ sampleReads.maximumFields.toNat ∧
      1 ≤ sampleReads.maximumResponseBytes ∧
      targetedStateReadRequest (reconciliationRead w sampleReads.maximumResponseBytes) sampleReads =
        .error (.invalid "targeted state reconciliation idempotency key") := by
  exact ⟨rfl, by decide, by decide, rfl⟩

end ProviderSdk
