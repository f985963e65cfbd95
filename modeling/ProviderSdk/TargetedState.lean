/-
Targeted reads and writes of state (`validation.rs`).

`prost` is not part of the repository: `Prost` is what its encodings of the
three messages are. A capability or a request is `Accepted` when its
validator passes it, and the predicates say what that comes to.
-/
import ProviderSdk.Validation

namespace ProviderSdk

open Checks V1

/-- The encodings the validators ask `prost` for: the bytes of a field, and
the encoded lengths of a write request and a write response. -/
class Prost where
  encodeToVec : StateField → List UInt8
  requestLen : WriteTargetedStateRequest → Nat
  responseLen : WriteTargetedStateResponse → Nat

variable [Prost]

/-! ## Capabilities -/

def targetedStateReadCapability (capability : TargetedStateReadCapability) : Except ValidationError Unit :=
  reject (capability.maximumFields = 0 ∨ capability.maximumResponseBytes = 0) (.invalid "targeted state read limits")

/-- The body of the loop over a write capability's fields. -/
def scanFieldCapability (fields : HashSet (List UInt8)) (fieldCapability : TargetedStateFieldWriteCapability) :
    Except ValidationError (HashSet (List UInt8)) := do
  let field ← okOr fieldCapability.field (.missing "targeted state write capability field")
  validateStateField field
  reject (¬ fieldCapability.setSupported ∧ ¬ fieldCapability.clearSupported)
    (.invalid "targeted state write field capability")
  let (fields, fresh) := fields.insert (Prost.encodeToVec field)
  reject (¬ fresh) (.duplicate "targeted state write capability field")
  pure fields

def targetedStateWriteCapability (capability : TargetedStateWriteCapability) : Except ValidationError Unit := do
  let preconditionMode ← okOr (TargetedStateWritePreconditionMode.tryFrom capability.preconditionMode)
    (.invalid "targeted state write precondition mode")
  let idempotencyMode ← okOr (TargetedStateWriteIdempotencyMode.tryFrom capability.idempotencyMode)
    (.invalid "targeted state write idempotency mode")
  reject (capability.fields.isEmpty ∨ preconditionMode = .unspecified ∨ idempotencyMode = .unspecified ∨
    capability.maximumFields = 0 ∨ capability.maximumRequestBytes = 0 ∨ capability.maximumResponseBytes = 0 ∨
    capability.maximumReceiptBytes = 0 ∨ capability.maximumReceiptBytes > capability.maximumResponseBytes)
    (.invalid "targeted state write capability")
  discard <| capability.fields.foldlM scanFieldCapability .new

/-! ## Reads -/

/-- The body of the loop over a read's fields. -/
def scanReadField (fields : HashSet (List UInt8)) (field : StateField) :
    Except ValidationError (HashSet (List UInt8)) := do
  validateStateField field
  let (fields, fresh) := fields.insert (Prost.encodeToVec field)
  reject (¬ fresh) (.duplicate "targeted state read field")
  pure fields

def targetedStateReadRequest (request : ReadTargetedStateRequest) (capability : TargetedStateReadCapability) :
    Except ValidationError Unit := do
  targetedStateReadCapability capability
  reject request.operationId.isEmpty (.empty "targeted state read operation ID")
  key (← okOr request.sourceKey (.missing "targeted state read source key")) "targeted state read source key"
  validateSubject (← okOr request.subject (.missing "targeted state read subject"))
  reject request.fields.isEmpty (.empty "targeted state read fields")
  reject (request.fields.length > capability.maximumFields.toNat) (.invalid "targeted state read field limit")
  reject (request.maximumResponseBytes = 0 ∨ request.maximumResponseBytes > capability.maximumResponseBytes)
    (.invalid "targeted state read response limit")
  reject (¬ request.reconciliationIdempotencyKey.isEmpty ∧ request.reconciliationIdempotencyKey.length ≠ 16)
    (.invalid "targeted state reconciliation idempotency key")
  discard <| request.fields.foldlM scanReadField .new

/-! ## Writes -/

/-- The `match` on an intent's operation. -/
def checkOperation (fieldCapability : TargetedStateFieldWriteCapability) (operation : TargetedStateWriteOperation) :
    Except ValidationError Unit :=
  match operation with
  | .set value => do
    reject (¬ fieldCapability.setSupported) (.invalid "targeted state write set capability")
    validateValue value "targeted state write set value"
  | .clear => reject (¬ fieldCapability.clearSupported) (.invalid "targeted state write clear capability")

/-- The body of the loop over a write's intents. -/
def scanIntent (capability : TargetedStateWriteCapability) (fields : HashSet (List UInt8))
    (intent : TargetedStateWriteIntent) : Except ValidationError (HashSet (List UInt8)) := do
  let field ← okOr intent.field (.missing "targeted state write field")
  validateStateField field
  let (fields, fresh) := fields.insert (Prost.encodeToVec field)
  reject (¬ fresh) (.duplicate "targeted state write field")
  let fieldCapability ← okOr (capability.fields.find? (·.field = some field))
    (.invalid "targeted state write field capability")
  checkOperation fieldCapability (← okOr intent.operation (.missing "targeted state write operation"))
  pure fields

/-- The `match` on the precondition mode of a validated capability. -/
def checkPrecondition (mode : TargetedStateWritePreconditionMode) (precondition : List UInt8) :
    Except (Fault ValidationError) Unit :=
  match mode with
  | .providerToken => reject precondition.isEmpty (.error (.empty "targeted state write precondition"))
  | .hostRecheckOnly =>
    reject (¬ precondition.isEmpty) (.error (.invalid "host-only targeted state write precondition"))
  | .unspecified => throw .panic

def targetedStateWriteRequest (request : WriteTargetedStateRequest) (capability : TargetedStateWriteCapability) :
    Except (Fault ValidationError) Unit := do
  let (expectedMembership, preconditionMode) ← fallible do
    targetedStateWriteCapability capability
    reject request.operationId.isEmpty (.empty "targeted state write operation ID")
    key (← okOr request.sourceKey (.missing "targeted state write source key")) "targeted state write source key"
    validateSubject (← okOr request.subject (.missing "targeted state write subject"))
    reject request.idempotencyKey.isEmpty (.empty "targeted state write idempotency key")
    let expectedMembership ← okOr (SourceMembership.tryFrom request.expectedMembership)
      (.invalid "targeted state write expected membership")
    reject (¬ (expectedMembership = .present ∨ expectedMembership = .absent))
      (.invalid "targeted state write expected membership")
    let preconditionMode ← okOr (TargetedStateWritePreconditionMode.tryFrom capability.preconditionMode)
      (.invalid "targeted state write precondition mode")
    pure (expectedMembership, preconditionMode)
  checkPrecondition preconditionMode request.precondition
  fallible do
    reject (request.allowCreateMembership ≠ decide (expectedMembership = .absent) ∨
      request.allowCreateMembership ∧ ¬ capability.mayCreateSourceMembership)
      (.invalid "targeted state write membership creation")
    reject request.intents.isEmpty (.empty "targeted state write intents")
    reject (request.intents.length > capability.maximumFields.toNat) (.invalid "targeted state write field limit")
    discard <| request.intents.foldlM (scanIntent capability) .new
    reject (request.maximumReceiptBytes = 0 ∨ request.maximumReceiptBytes > capability.maximumReceiptBytes)
      (.invalid "targeted state write receipt limit")
    reject (request.maximumResponseBytes = 0 ∨ request.maximumResponseBytes > capability.maximumResponseBytes ∨
      request.maximumReceiptBytes > request.maximumResponseBytes) (.invalid "targeted state write response limit")
    reject (Prost.requestLen request > capability.maximumRequestBytes.toNat)
      (.targetedStateWriteRequestTooLarge (Prost.requestLen request) capability.maximumRequestBytes)

/-! ## What the request validators accept -/

/-- The bytes of a field, by which its uses are told apart. -/
def encodeField (field : Option StateField) : List UInt8 := field.elim [] Prost.encodeToVec

structure V1.TargetedStateWriteCapability.WellFormed (capability : TargetedStateWriteCapability) : Prop where
  preconditionMode : ∃ mode, TargetedStateWritePreconditionMode.tryFrom capability.preconditionMode = some mode ∧
    mode ≠ .unspecified
  idempotencyMode : ∃ mode, TargetedStateWriteIdempotencyMode.tryFrom capability.idempotencyMode = some mode ∧
    mode ≠ .unspecified
  fields : capability.fields ≠ []
  limits : capability.maximumFields ≠ 0 ∧ capability.maximumRequestBytes ≠ 0 ∧
    capability.maximumResponseBytes ≠ 0 ∧ capability.maximumReceiptBytes ≠ 0 ∧
    capability.maximumReceiptBytes ≤ capability.maximumResponseBytes
  distinct : (capability.fields.map fun f => encodeField f.field).Nodup
  each : ∀ f ∈ capability.fields, (∃ field, f.field = some field ∧ field.WellFormed) ∧
    (f.setSupported = true ∨ f.clearSupported = true)

theorem scanFieldCapability_guarded : Guarded scanFieldCapability
    (fun fields f => encodeField f.field ∉ fields ∧ (∃ field, f.field = some field ∧ field.WellFormed) ∧
      (f.setSupported = true ∨ f.clearSupported = true))
    (fun fields f => (fields.insert (encodeField f.field)).1) where
  ok_iff {fields f r} := by
    unfold scanFieldCapability
    cases f.field with
    | none => simp
    | some field =>
      simp only [bind_ok, okOr_ok, Option.some.injEq, validateStateField_ok, exists_const, reject_ok, not_and,
        not_not, HashSet.insert_fresh, pure_ok, encodeField, Option.elim, exists_eq_left', ← or_iff_not_imp_left]
      refine ⟨fun h => ?_, fun h => ?_⟩
      · obtain ⟨h₁, h₂, h₃, h₄⟩ := h
        exact ⟨⟨h₃, h₁, h₂⟩, h₄⟩
      · obtain ⟨⟨h₃, h₁, h₂⟩, h₄⟩ := h
        exact ⟨h₁, h₂, h₃, h₄⟩

theorem targetedStateWriteCapability_ok {capability : TargetedStateWriteCapability} {u : Unit} :
    targetedStateWriteCapability capability = .ok u ↔ capability.WellFormed := by
  simp only [targetedStateWriteCapability, bind_ok, okOr_ok, reject_ok, not_or, exists_const, discard_ok,
    scanFieldCapability_guarded.foldlM_after (b := .new)
      (fun pre => .collect (pre.map fun f => encodeField f.field)) rfl (fun pre f => by simp),
    HashSet.mem_collect, each_and, each_fresh, each_forall, List.isEmpty_iff, gt_iff_lt, UInt64.not_lt]
  refine ⟨?_, fun h => ?_⟩
  · intro h
    obtain ⟨mode, hmode, idem, hidem, ⟨h₁, h₂, h₃, h₄, h₅, h₆, h₇, h₈⟩, _, ⟨hd, hf, hs⟩, _⟩ := h
    exact ⟨⟨mode, hmode, h₂⟩, ⟨idem, hidem, h₃⟩, h₁, ⟨h₄, h₅, h₆, h₇, h₈⟩, hd, fun f hm => ⟨hf f hm, hs f hm⟩⟩
  · obtain ⟨mode, hmode, h₂⟩ := h.preconditionMode
    obtain ⟨idem, hidem, h₃⟩ := h.idempotencyMode
    exact ⟨mode, hmode, idem, hidem, ⟨h.fields, h₂, h₃, h.limits⟩, _,
      ⟨h.distinct, fun f hm => (h.each f hm).1, fun f hm => (h.each f hm).2⟩, rfl⟩

structure V1.ReadTargetedStateRequest.Accepted (capability : TargetedStateReadCapability)
    (request : ReadTargetedStateRequest) : Prop where
  limits : capability.maximumFields ≠ 0 ∧ capability.maximumResponseBytes ≠ 0
  operationId : request.operationId ≠ []
  sourceKey : ∃ k, request.sourceKey = some k ∧ k.WellFormed
  subject : ∃ s, request.subject = some s ∧ s.WellFormed
  fields : request.fields ≠ [] ∧ request.fields.length ≤ capability.maximumFields.toNat
  response : request.maximumResponseBytes ≠ 0 ∧ request.maximumResponseBytes ≤ capability.maximumResponseBytes
  reconciliation : request.reconciliationIdempotencyKey ≠ [] → request.reconciliationIdempotencyKey.length = 16
  wellFormed : ∀ f ∈ request.fields, f.WellFormed
  distinct : (request.fields.map Prost.encodeToVec).Nodup

theorem scanReadField_guarded : Guarded scanReadField
    (fun fields f => Prost.encodeToVec f ∉ fields ∧ f.WellFormed)
    (fun fields f => (fields.insert (Prost.encodeToVec f)).1) where
  ok_iff := by simp [scanReadField, and_left_comm, and_assoc]

theorem targetedStateReadRequest_ok {request : ReadTargetedStateRequest} {capability : TargetedStateReadCapability}
    {u : Unit} : targetedStateReadRequest request capability = .ok u ↔ request.Accepted capability := by
  simp only [targetedStateReadRequest, targetedStateReadCapability, bind_ok, okOr_ok, reject_ok, not_or, not_and,
    not_not, exists_const, key_ok, validateSubject_ok, discard_ok, List.isEmpty_iff, gt_iff_lt, UInt64.not_lt,
    Nat.not_lt, scanReadField_guarded.foldlM_after (b := .new)
      (fun pre => .collect (pre.map Prost.encodeToVec)) rfl (fun pre f => by simp),
    HashSet.mem_collect, each_and, each_fresh, each_forall, ne_eq]
  refine ⟨?_, fun h => ?_⟩
  · intro h
    obtain ⟨hl, ho, k, hk, hkw, s, hs, hsw, hn, hm, hr, hi, _, ⟨hd, hw⟩, _⟩ := h
    exact ⟨hl, ho, ⟨k, hk, hkw⟩, ⟨s, hs, hsw⟩, ⟨hn, hm⟩, hr, hi, hw, hd⟩
  · obtain ⟨k, hk, hkw⟩ := h.sourceKey
    obtain ⟨s, hs, hsw⟩ := h.subject
    exact ⟨h.limits, h.operationId, k, hk, hkw, s, hs, hsw, h.fields.1, h.fields.2, h.response, h.reconciliation, _,
      ⟨h.distinct, h.wellFormed⟩, rfl⟩

/-- An intent on a field of the capability, of a kind it supports. -/
structure V1.TargetedStateWriteIntent.SupportedBy (capability : TargetedStateWriteCapability)
    (intent : TargetedStateWriteIntent) : Prop where
  supported : ∃ field fieldCapability, intent.field = some field ∧ field.WellFormed ∧
    capability.fields.find? (·.field = some field) = some fieldCapability ∧
    ((∃ value, intent.operation = some (.set value) ∧ fieldCapability.setSupported = true ∧
        value.value.isSome = true) ∨
      intent.operation = some .clear ∧ fieldCapability.clearSupported = true)

structure V1.WriteTargetedStateRequest.Accepted (capability : TargetedStateWriteCapability)
    (request : WriteTargetedStateRequest) : Prop where
  declared : capability.WellFormed
  operationId : request.operationId ≠ []
  sourceKey : ∃ k, request.sourceKey = some k ∧ k.WellFormed
  subject : ∃ s, request.subject = some s ∧ s.WellFormed
  idempotencyKey : request.idempotencyKey ≠ []
  membership : ∃ membership, SourceMembership.tryFrom request.expectedMembership = some membership ∧
    (membership = .present ∨ membership = .absent) ∧
    request.allowCreateMembership = decide (membership = .absent) ∧
    (request.allowCreateMembership = true → capability.mayCreateSourceMembership = true)
  precondition : ∃ mode, TargetedStateWritePreconditionMode.tryFrom capability.preconditionMode = some mode ∧
    (mode = .providerToken ∧ request.precondition ≠ [] ∨ mode = .hostRecheckOnly ∧ request.precondition = [])
  intents : request.intents ≠ [] ∧ request.intents.length ≤ capability.maximumFields.toNat
  supported : ∀ intent ∈ request.intents, intent.SupportedBy capability
  distinct : (request.intents.map fun intent => encodeField intent.field).Nodup
  receipt : request.maximumReceiptBytes ≠ 0 ∧ request.maximumReceiptBytes ≤ capability.maximumReceiptBytes
  response : request.maximumResponseBytes ≠ 0 ∧ request.maximumResponseBytes ≤ capability.maximumResponseBytes ∧
    request.maximumReceiptBytes ≤ request.maximumResponseBytes
  size : Prost.requestLen request ≤ capability.maximumRequestBytes.toNat

omit [Prost] in
theorem checkOperation_ok {fieldCapability : TargetedStateFieldWriteCapability}
    {operation : TargetedStateWriteOperation} {u : Unit} : checkOperation fieldCapability operation = .ok u ↔
      (∃ value, operation = .set value ∧ fieldCapability.setSupported = true ∧ value.value.isSome = true) ∨
        operation = .clear ∧ fieldCapability.clearSupported = true := by
  cases operation <;> simp [checkOperation]

theorem scanIntent_guarded {capability : TargetedStateWriteCapability} : Guarded (scanIntent capability)
    (fun fields intent => encodeField intent.field ∉ fields ∧ intent.SupportedBy capability)
    (fun fields intent => (fields.insert (encodeField intent.field)).1) where
  ok_iff {fields intent r} := by
    simp only [scanIntent, bind_ok, okOr_ok, validateStateField_ok, exists_const, reject_ok, not_not,
      HashSet.insert_fresh, pure_ok, checkOperation_ok]
    refine ⟨fun h => ?_, fun h => ?_⟩
    · obtain ⟨field, hf, hw, hfresh, fc, hc, op, ho, hsup, hr⟩ := h
      have he : encodeField intent.field = Prost.encodeToVec field := by rw [hf]; rfl
      refine ⟨⟨he ▸ hfresh, ⟨field, fc, hf, hw, hc, ?_⟩⟩, he ▸ hr⟩
      rcases hsup with ⟨value, rfl, hset⟩ | ⟨rfl, hclear⟩
      · exact .inl ⟨value, ho, hset⟩
      · exact .inr ⟨ho, hclear⟩
    · obtain ⟨⟨hfresh, hs⟩, hr⟩ := h
      obtain ⟨field, fc, hf, hw, hc, hsup⟩ := hs.supported
      have he : encodeField intent.field = Prost.encodeToVec field := by rw [hf]; rfl
      refine ⟨field, hf, hw, he ▸ hfresh, fc, hc, ?_⟩
      rcases hsup with ⟨value, ho, hset⟩ | ⟨ho, hclear⟩
      · exact ⟨_, ho, .inl ⟨value, rfl, hset⟩, he ▸ hr⟩
      · exact ⟨_, ho, .inr ⟨rfl, hclear⟩, he ▸ hr⟩

omit [Prost] in
theorem checkPrecondition_ok {mode : TargetedStateWritePreconditionMode} {precondition : List UInt8} {u : Unit} :
    checkPrecondition mode precondition = .ok u ↔
      mode = .providerToken ∧ precondition ≠ [] ∨ mode = .hostRecheckOnly ∧ precondition = [] := by
  cases mode <;> simp [checkPrecondition]

theorem targetedStateWriteRequest_ok {request : WriteTargetedStateRequest}
    {capability : TargetedStateWriteCapability} {u : Unit} :
    targetedStateWriteRequest request capability = .ok u ↔ request.Accepted capability := by
  simp only [targetedStateWriteRequest, bind_ok, fallible_ok, okOr_ok, reject_ok, not_or, not_and,
    not_not, exists_const, key_ok, validateSubject_ok, discard_ok, List.isEmpty_iff, gt_iff_lt, UInt64.not_lt,
    Nat.not_lt, scanIntent_guarded.foldlM_after (b := .new)
      (fun pre => .collect (pre.map fun intent => encodeField intent.field)) rfl (fun pre f => by simp),
    HashSet.mem_collect, each_and, each_fresh, each_forall, targetedStateWriteCapability_ok, pure_ok,
    checkPrecondition_ok, ne_eq]
  refine ⟨?_, fun h => ?_⟩
  · intro h
    obtain ⟨_, ⟨hc, ho, k, hk, hkw, s, hs, hsw, hi, m, hm, hpa, mode, hmode, he⟩, hpre, hcreate, hn, hmax,
      ⟨_, ⟨hd, hsup⟩, _⟩, hreceipt, hresponse, hsize⟩ := h
    subst he
    exact ⟨hc, ho, ⟨k, hk, hkw⟩, ⟨s, hs, hsw⟩, hi, ⟨m, hm, or_iff_not_imp_left.mpr hpa, hcreate⟩,
      ⟨mode, hmode, hpre⟩, ⟨hn, hmax⟩, hsup, hd, hreceipt, hresponse, hsize⟩
  · obtain ⟨k, hk, hkw⟩ := h.sourceKey
    obtain ⟨s, hs, hsw⟩ := h.subject
    obtain ⟨m, hm, hpa, hcreate⟩ := h.membership
    obtain ⟨mode, hmode, hpre⟩ := h.precondition
    exact ⟨(m, mode), ⟨h.declared, h.operationId, k, hk, hkw, s, hs, hsw, h.idempotencyKey, m, hm,
      or_iff_not_imp_left.mp hpa, mode, hmode, rfl⟩, hpre, hcreate, h.intents.1, h.intents.2,
      ⟨_, ⟨h.distinct, h.supported⟩, rfl⟩, h.receipt, h.response, h.size⟩

end ProviderSdk
