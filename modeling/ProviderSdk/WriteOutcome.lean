/-
What a targeted write may report (`validation.rs`).

The response validator is a cascade over status, certainty, retry, error,
effects and membership. What it accepts is one of four reports, each with
all it says at once (`WriteReport.Holds`).
-/
import ProviderSdk.Reconciliation

namespace ProviderSdk

open Checks V1

/-! ## The validator -/

/-- `valid_combination`. -/
def validCombination (status : TargetedStateWriteStatus) (certainty : TargetedStateWriteCertainty)
    (retry : TargetedStateWriteRetryDisposition) : Bool :=
  match status, certainty, retry with
  | .applied, .confirmedApplied, .notRetryable
  | .noOp, .confirmedNotApplied, .notRetryable
  | .rejected, .confirmedNotApplied, .notRetryable
  | .failed, .confirmedNotApplied, .safeSameKey
  | .failed, .confirmedNotApplied, .notRetryable
  | .indeterminate, .unknown, .reconcileFirst => true
  | _, _, _ => false

/-- The `match` on an effect in `validate_targeted_state_write_effects`. -/
def checkEffectKind (status : TargetedStateWriteStatus) (operation : Option TargetedStateWriteOperation)
    (effectKind : TargetedStateFieldEffectKind) (value : Option Value) : Except ValidationError Unit :=
  match status, operation, effectKind with
  | .applied, some (.set intended), .set =>
    if value = some intended then validateValue intended "targeted state write effect value"
    else throw (.invalid "targeted state write field effect")
  | .applied, some .clear, .cleared | .noOp, _, .unchanged | .indeterminate, _, .unknown =>
    reject value.isSome (.invalid "targeted state write field effect")
  | _, _, _ => throw (.invalid "targeted state write field effect")

/-- The body of the loop over intents and effects. -/
def checkFieldEffect (status : TargetedStateWriteStatus) (intent : TargetedStateWriteIntent)
    (effect : TargetedStateWriteFieldEffect) : Except ValidationError Unit := do
  let field ← okOr effect.field (.missing "targeted state write effect field")
  validateStateField field
  reject (intent.field ≠ some field) .targetedStateWriteFieldMismatch
  let effectKind ← okOr (TargetedStateFieldEffectKind.tryFrom effect.effect)
    (.invalid "targeted state write field effect")
  checkEffectKind status intent.operation effectKind effect.value

def validateTargetedStateWriteEffects (request : WriteTargetedStateRequest) (response : WriteTargetedStateResponse)
    (status : TargetedStateWriteStatus) : Except ValidationError Unit :=
  if status = .rejected ∨ status = .failed then
    if response.fieldEffects.isEmpty then pure () else throw .errorWithPayload
  else do
    reject (response.fieldEffects.length ≠ request.intents.length) .targetedStateWriteFieldCount
    (request.intents.zip response.fieldEffects).forM fun (intent, effect) => checkFieldEffect status intent effect

/-- `expected_effect`, for a validated combination. -/
def expectedMembershipEffect (status : TargetedStateWriteStatus) (expectedMembership : SourceMembership) :
    Except (Fault ValidationError) TargetedStateMembershipEffect :=
  match status with
  | .applied => pure (if expectedMembership = .absent then .created else .unchanged)
  | .noOp | .rejected | .failed => pure .unchanged
  | .indeterminate => pure .unknown
  | .unspecified => throw .panic

def targetedStateWriteResponse [Prost] (request : WriteTargetedStateRequest) (capability : TargetedStateWriteCapability)
    (response : WriteTargetedStateResponse) : Except (Fault ValidationError) Unit := do
  targetedStateWriteRequest request capability
  let (status, membershipEffect, expectedMembership) ← fallible do
    reject (Prost.responseLen response > request.maximumResponseBytes.toNat)
      (.targetedStateWriteResponseTooLarge (Prost.responseLen response) request.maximumResponseBytes)
    reject (response.receipt.length > request.maximumReceiptBytes.toNat)
      (.targetedStateWriteReceiptTooLarge response.receipt.length request.maximumReceiptBytes)
    let status ← okOr (TargetedStateWriteStatus.tryFrom response.status) (.invalid "targeted state write status")
    let certainty ← okOr (TargetedStateWriteCertainty.tryFrom response.certainty)
      (.invalid "targeted state write certainty")
    let retry ← okOr (TargetedStateWriteRetryDisposition.tryFrom response.retryDisposition)
      (.invalid "targeted state write retry disposition")
    reject (¬ validCombination status certainty retry) (.invalid "targeted state write outcome combination")
    (if retry = .safeSameKey then do
      let idempotencyMode ← okOr (TargetedStateWriteIdempotencyMode.tryFrom capability.idempotencyMode)
        (.invalid "targeted state write idempotency mode")
      reject (idempotencyMode ≠ .stableKey) (.invalid "targeted state write retry idempotency")
    else pure ())
    (if status = .rejected ∨ status = .failed ∨ status = .indeterminate then do
      adapterError (← okOr response.error (.missing "targeted state write error"))
    else reject response.error.isSome .errorWithPayload)
    validateTargetedStateWriteEffects request response status
    let membershipEffect ← okOr (TargetedStateMembershipEffect.tryFrom response.membershipEffect)
      (.invalid "targeted state membership effect")
    let expectedMembership ← okOr (SourceMembership.tryFrom request.expectedMembership)
      (.invalid "targeted state write expected membership")
    pure (status, membershipEffect, expectedMembership)
  let expectedEffect ← expectedMembershipEffect status expectedMembership
  fallible do
    reject (membershipEffect ≠ expectedEffect) (.invalid "targeted state membership effect")
    (if status = .applied ∨ status = .noOp then do
      reject response.providerRevision.isEmpty (.empty "targeted state write provider revision")
      let preconditionMode ← okOr (TargetedStateWritePreconditionMode.tryFrom capability.preconditionMode)
        (.invalid "targeted state write precondition mode")
      reject (preconditionMode = .providerToken ∧ response.successorPrecondition.isEmpty)
        (.empty "targeted state write successor precondition")
    else pure ())
    reject (status = .applied ∧ response.receipt.isEmpty) (.empty "targeted state write receipt")

/-! ## The reports -/

/-- An effect that carries out its intent. -/
structure CarriesOut (intent : TargetedStateWriteIntent) (effect : TargetedStateWriteFieldEffect) : Prop where
  field : effect.field = intent.field
  kind : (∃ value, intent.operation = some (.set value) ∧
      TargetedStateFieldEffectKind.tryFrom effect.effect = some .set ∧ effect.value = some value) ∨
    intent.operation = some .clear ∧ TargetedStateFieldEffectKind.tryFrom effect.effect = some .cleared ∧
      effect.value = none

/-- An effect on the intent's field, of a kind without a value. -/
structure Leaves (kind : TargetedStateFieldEffectKind) (intent : TargetedStateWriteIntent)
    (effect : TargetedStateWriteFieldEffect) : Prop where
  field : effect.field = intent.field
  kind : TargetedStateFieldEffectKind.tryFrom effect.effect = some kind
  value : effect.value = none

/-- The four codes of a response. -/
structure Says (response : WriteTargetedStateResponse) (status : TargetedStateWriteStatus)
    (certainty : TargetedStateWriteCertainty) (retry : TargetedStateWriteRetryDisposition)
    (membership : TargetedStateMembershipEffect) : Prop where
  status : TargetedStateWriteStatus.tryFrom response.status = some status
  certainty : TargetedStateWriteCertainty.tryFrom response.certainty = some certainty
  retry : TargetedStateWriteRetryDisposition.tryFrom response.retryDisposition = some retry
  membership : TargetedStateMembershipEffect.tryFrom response.membershipEffect = some membership

/-- What a write that settled the fields leaves for the next one. -/
structure Settles (capability : TargetedStateWriteCapability) (response : WriteTargetedStateResponse) : Prop where
  error : response.error = none
  providerRevision : response.providerRevision ≠ []
  successor : TargetedStateWritePreconditionMode.tryFrom capability.preconditionMode = some .providerToken →
    response.successorPrecondition ≠ []

/-- The membership effect of an applied write. -/
def appliedMembership (request : WriteTargetedStateRequest) : TargetedStateMembershipEffect :=
  if SourceMembership.tryFrom request.expectedMembership = some .absent then .created else .unchanged

inductive WriteReport where
  | applied
  | noOp
  | refused
  | indeterminate
  deriving DecidableEq

/-- All that a report says. -/
def WriteReport.Holds (request : WriteTargetedStateRequest) (capability : TargetedStateWriteCapability)
    (response : WriteTargetedStateResponse) : WriteReport → Prop
  | .applied => Says response .applied .confirmedApplied .notRetryable (appliedMembership request) ∧
    List.Forall₂ CarriesOut request.intents response.fieldEffects ∧ Settles capability response ∧
    response.receipt ≠ []
  | .noOp => Says response .noOp .confirmedNotApplied .notRetryable .unchanged ∧
    List.Forall₂ (Leaves .unchanged) request.intents response.fieldEffects ∧ Settles capability response
  | .refused => (Says response .rejected .confirmedNotApplied .notRetryable .unchanged ∨
      Says response .failed .confirmedNotApplied .notRetryable .unchanged ∨
      Says response .failed .confirmedNotApplied .safeSameKey .unchanged ∧
        TargetedStateWriteIdempotencyMode.tryFrom capability.idempotencyMode = some .stableKey) ∧
    (∃ error, response.error = some error ∧ error.WellFormed) ∧ response.fieldEffects = []
  | .indeterminate => Says response .indeterminate .unknown .reconcileFirst .unknown ∧
    (∃ error, response.error = some error ∧ error.WellFormed) ∧
    List.Forall₂ (Leaves .unknown) request.intents response.fieldEffects

/-! ## The effects -/

/-- What the effect of an intent must be under a status. -/
def EffectOf : TargetedStateWriteStatus → TargetedStateWriteIntent → TargetedStateWriteFieldEffect → Prop
  | .applied => CarriesOut
  | .noOp => Leaves .unchanged
  | .indeterminate => Leaves .unknown
  | _ => fun _ _ => False

/-- What the kind and the value of an effect must be under a status. -/
def KindOf (operation : Option TargetedStateWriteOperation) (kind : TargetedStateFieldEffectKind)
    (value : Option Value) : TargetedStateWriteStatus → Prop
  | .applied => (∃ intended, operation = some (.set intended) ∧ kind = .set ∧ value = some intended) ∨
    operation = some .clear ∧ kind = .cleared ∧ value = none
  | .noOp => kind = .unchanged ∧ value = none
  | .indeterminate => kind = .unknown ∧ value = none
  | _ => False

theorem checkEffectKind_ok {status : TargetedStateWriteStatus} {operation : Option TargetedStateWriteOperation}
    {kind : TargetedStateFieldEffectKind} {value : Option Value} {u : Unit}
    (hset : ∀ intended, operation = some (.set intended) → intended.value.isSome = true) :
    checkEffectKind status operation kind value = .ok u ↔ KindOf operation kind value status := by
  rcases operation with _ | ⟨intended | _⟩
  · cases status <;> cases kind <;> simp [checkEffectKind, KindOf]
  · have hsome := hset intended rfl
    cases status <;> cases kind <;> simp [checkEffectKind, KindOf]
    split <;> simp_all
  · cases status <;> cases kind <;> simp [checkEffectKind, KindOf]

/-- A value an accepted intent sets has a kind. -/
theorem V1.TargetedStateWriteIntent.SupportedBy.set_value {capability : TargetedStateWriteCapability}
    {intent : TargetedStateWriteIntent} (h : intent.SupportedBy capability) :
    ∀ intended, intent.operation = some (.set intended) → intended.value.isSome = true := by
  obtain ⟨_, _, _, _, _, hop⟩ := h.supported
  intro intended he
  rcases hop with ⟨value, ho, _, hsome⟩ | ⟨ho, _⟩
  · rw [ho] at he
    cases he
    exact hsome
  · rw [ho] at he
    cases he

theorem effectOf_iff {status : TargetedStateWriteStatus} {intent : TargetedStateWriteIntent}
    {effect : TargetedStateWriteFieldEffect} : EffectOf status intent effect ↔
      effect.field = intent.field ∧ ∃ kind, TargetedStateFieldEffectKind.tryFrom effect.effect = some kind ∧
        KindOf intent.operation kind effect.value status := by
  cases status with
  | applied =>
    refine ⟨fun h => ?_, fun h => ?_⟩
    · obtain ⟨he, h⟩ := h
      rcases h with ⟨v, ho, hk, hv⟩ | ⟨ho, hk, hv⟩
      · exact ⟨he, _, hk, .inl ⟨v, ho, rfl, hv⟩⟩
      · exact ⟨he, _, hk, .inr ⟨ho, rfl, hv⟩⟩
    · obtain ⟨he, kind, hk, h⟩ := h
      rcases h with ⟨v, ho, rfl, hv⟩ | ⟨ho, rfl, hv⟩
      · exact ⟨he, .inl ⟨v, ho, hk, hv⟩⟩
      · exact ⟨he, .inr ⟨ho, hk, hv⟩⟩
  | noOp | indeterminate =>
    refine ⟨fun h => ⟨h.field, _, h.kind, rfl, h.value⟩, fun h => ?_⟩
    obtain ⟨he, kind, hk, hkind, hv⟩ := h
    exact ⟨he, hkind ▸ hk, hv⟩
  | unspecified | rejected | failed => simp [KindOf, EffectOf]

theorem checkFieldEffect_ok {capability : TargetedStateWriteCapability} {status : TargetedStateWriteStatus}
    {intent : TargetedStateWriteIntent} {effect : TargetedStateWriteFieldEffect} {u : Unit}
    (h : intent.SupportedBy capability) :
    checkFieldEffect status intent effect = .ok u ↔ EffectOf status intent effect := by
  obtain ⟨field, fc, hf, hw, _⟩ := h.supported
  rw [effectOf_iff]
  simp only [checkFieldEffect, bind_ok, okOr_ok, validateStateField_ok, exists_const, reject_ok, not_not,
    checkEffectKind_ok h.set_value, hf, Option.some.injEq, ne_eq]
  refine ⟨fun h => ?_, fun h => ?_⟩
  · obtain ⟨f, he, _, hff, h⟩ := h
    exact ⟨hff ▸ he, h⟩
  · obtain ⟨he, h⟩ := h
    exact ⟨field, he, hw, rfl, h⟩

theorem validateEffects_ok {capability : TargetedStateWriteCapability} {request : WriteTargetedStateRequest}
    {response : WriteTargetedStateResponse} {status : TargetedStateWriteStatus} {u : Unit}
    (h : ∀ intent ∈ request.intents, intent.SupportedBy capability) :
    validateTargetedStateWriteEffects request response status = .ok u ↔
      if status = .rejected ∨ status = .failed then response.fieldEffects = []
      else List.Forall₂ (EffectOf status) request.intents response.fieldEffects := by
  unfold validateTargetedStateWriteEffects
  split
  · cases response.fieldEffects <;> simp
  · simp only [bind_ok, reject_ok, not_not, exists_const, forM_ok, ne_eq, List.forall₂_iff_zip]
    refine and_congr eq_comm ⟨fun hall intent effect hm => ?_, fun hall pair hm => ?_⟩
    · exact (checkFieldEffect_ok (h intent (List.of_mem_zip hm).1)).mp (hall _ hm)
    · exact (checkFieldEffect_ok (h pair.1 (List.of_mem_zip hm).1)).mpr (hall hm)

/-! ## What the validator accepts -/

/-- The membership effect a status comes with. -/
def membershipEffectOf (request : WriteTargetedStateRequest) : TargetedStateWriteStatus → TargetedStateMembershipEffect
  | .applied => appliedMembership request
  | .indeterminate => .unknown
  | _ => .unchanged

/-- The cascade of `targeted_state_write_response`, as one conjunction. -/
structure Passes (request : WriteTargetedStateRequest) (capability : TargetedStateWriteCapability)
    (response : WriteTargetedStateResponse) (status : TargetedStateWriteStatus)
    (certainty : TargetedStateWriteCertainty) (retry : TargetedStateWriteRetryDisposition) : Prop where
  codes : Says response status certainty retry (membershipEffectOf request status)
  combination : validCombination status certainty retry = true
  stableKey : retry = .safeSameKey →
    TargetedStateWriteIdempotencyMode.tryFrom capability.idempotencyMode = some .stableKey
  error : if status = .rejected ∨ status = .failed ∨ status = .indeterminate
    then ∃ error, response.error = some error ∧ error.WellFormed else response.error = none
  effects : if status = .rejected ∨ status = .failed then response.fieldEffects = []
    else List.Forall₂ (EffectOf status) request.intents response.fieldEffects
  settled : status = .applied ∨ status = .noOp → response.providerRevision ≠ [] ∧
    (TargetedStateWritePreconditionMode.tryFrom capability.preconditionMode = some .providerToken →
      response.successorPrecondition ≠ [])
  receipt : status = .applied → response.receipt ≠ []

theorem expectedMembershipEffect_ok {request : WriteTargetedStateRequest} {status : TargetedStateWriteStatus}
    {membership : SourceMembership} {effect : TargetedStateMembershipEffect}
    (h : SourceMembership.tryFrom request.expectedMembership = some membership) :
    expectedMembershipEffect status membership = .ok effect ↔
      status ≠ .unspecified ∧ membershipEffectOf request status = effect := by
  cases status <;> simp [expectedMembershipEffect, membershipEffectOf, appliedMembership, h]

theorem validCombination_specified {status : TargetedStateWriteStatus} {certainty : TargetedStateWriteCertainty}
    {retry : TargetedStateWriteRetryDisposition} (h : validCombination status certainty retry = true) :
    status ≠ .unspecified := by
  intro he
  rw [he] at h
  cases h

/-- A report fixes the status. -/
def WriteReport.Of : WriteReport → TargetedStateWriteStatus → Prop
  | .applied, status => status = .applied
  | .noOp, status => status = .noOp
  | .refused, status => status = .rejected ∨ status = .failed
  | .indeterminate, status => status = .indeterminate

theorem WriteReport.Holds.of {request : WriteTargetedStateRequest} {capability : TargetedStateWriteCapability}
    {response : WriteTargetedStateResponse} {report : WriteReport}
    (h : report.Holds request capability response) :
    ∃ status, TargetedStateWriteStatus.tryFrom response.status = some status ∧ report.Of status := by
  cases report with
  | applied => exact ⟨_, h.1.status, rfl⟩
  | noOp => exact ⟨_, h.1.status, rfl⟩
  | indeterminate => exact ⟨_, h.1.status, rfl⟩
  | refused =>
    rcases h.1 with hr | hf | ⟨hf, _⟩
    · exact ⟨_, hr.status, .inl rfl⟩
    · exact ⟨_, hf.status, .inr rfl⟩
    · exact ⟨_, hf.status, .inr rfl⟩

theorem WriteReport.Of.unique {r r' : WriteReport} {status : TargetedStateWriteStatus} (h : r.Of status)
    (h' : r'.Of status) : r = r' := by
  cases r <;> cases r' <;> simp_all [WriteReport.Of]

/-- The cascade passes exactly what one of the reports says. -/
theorem passes_iff_report {request : WriteTargetedStateRequest} {capability : TargetedStateWriteCapability}
    {response : WriteTargetedStateResponse} :
    (∃ status certainty retry, Passes request capability response status certainty retry) ↔
      ∃ report : WriteReport, report.Holds request capability response := by
  refine ⟨fun h => ?_, fun h => ?_⟩
  · obtain ⟨status, certainty, retry, h⟩ := h
    have hcomb := h.combination
    have herror := h.error
    have heffects := h.effects
    unfold validCombination at hcomb
    split at hcomb
    · obtain ⟨hrev, hsucc⟩ := h.settled (.inl rfl)
      exact ⟨.applied, h.codes, heffects, ⟨herror, hrev, hsucc⟩, h.receipt rfl⟩
    · obtain ⟨hrev, hsucc⟩ := h.settled (.inr rfl)
      exact ⟨.noOp, h.codes, heffects, herror, hrev, hsucc⟩
    · exact ⟨.refused, .inl h.codes, herror, heffects⟩
    · exact ⟨.refused, .inr (.inr ⟨h.codes, h.stableKey rfl⟩), herror, heffects⟩
    · exact ⟨.refused, .inr (.inl h.codes), herror, heffects⟩
    · exact ⟨.indeterminate, h.codes, herror, heffects⟩
    · cases hcomb
  · obtain ⟨report, h⟩ := h
    cases report with
    | applied =>
      obtain ⟨hcodes, heffects, hsettles, hreceipt⟩ := h
      exact ⟨_, _, _, hcodes, rfl, nofun, hsettles.error, heffects,
        fun _ => ⟨hsettles.providerRevision, hsettles.successor⟩, fun _ => hreceipt⟩
    | noOp =>
      obtain ⟨hcodes, heffects, hsettles⟩ := h
      exact ⟨_, _, _, hcodes, rfl, nofun, hsettles.error, heffects,
        fun _ => ⟨hsettles.providerRevision, hsettles.successor⟩, nofun⟩
    | refused =>
      obtain ⟨hcodes, herror, heffects⟩ := h
      rcases hcodes with hcodes | hcodes | ⟨hcodes, hstable⟩
      · exact ⟨_, _, _, hcodes, rfl, nofun, herror, heffects, by simp, nofun⟩
      · exact ⟨_, _, _, hcodes, rfl, nofun, herror, heffects, by simp, nofun⟩
      · exact ⟨_, _, _, hcodes, rfl, fun _ => hstable, herror, heffects, by simp, nofun⟩
    | indeterminate =>
      obtain ⟨hcodes, herror, heffects⟩ := h
      exact ⟨_, _, _, hcodes, rfl, nofun, herror, heffects, by simp, nofun⟩

variable [Prost]

theorem targetedStateWriteResponse_ok {request : WriteTargetedStateRequest}
    {capability : TargetedStateWriteCapability} {response : WriteTargetedStateResponse} {u : Unit} :
    targetedStateWriteResponse request capability response = .ok u ↔ request.Accepted capability ∧
      Prost.responseLen response ≤ request.maximumResponseBytes.toNat ∧
      response.receipt.length ≤ request.maximumReceiptBytes.toNat ∧
      ∃ status certainty retry, Passes request capability response status certainty retry := by
  simp only [targetedStateWriteResponse, bind_ok, targetedStateWriteRequest_ok, exists_const, fallible_ok,
    reject_ok, okOr_ok, pure_ok, gt_iff_lt, Nat.not_lt, not_not, ite_ok, adapterError_ok, not_and,
    Option.not_isSome_iff_eq_none, List.isEmpty_iff, exists_unit, ne_eq, if_true_right, exists_eq_right]
  refine and_congr_right fun hr => ⟨?_, ?_⟩
  · intro h
    obtain ⟨_, ⟨hsize, hreceipt, status, hs, certainty, hc, retry, ht, hcomb, hkey, herror, heffects, effect, hm,
      expected, hx, rfl⟩, _, hmembership, rfl, hsettled, hreceipts⟩ := h
    have he : membershipEffectOf request status = effect := ((expectedMembershipEffect_ok hx).mp hmembership).2
    refine ⟨hsize, hreceipt, status, certainty, retry, ⟨hs, hc, ht, he ▸ hm⟩, hcomb, hkey, herror,
      (validateEffects_ok hr.supported).mp heffects, fun h => ?_, hreceipts⟩
    obtain ⟨hrev, mode, hmode, hsucc⟩ := hsettled h
    refine ⟨hrev, fun htoken => hsucc ?_⟩
    rw [hmode] at htoken
    exact Option.some.inj htoken
  · intro hx
    obtain ⟨hsize, hreceipt, status, certainty, retry, h⟩ := hx
    obtain ⟨expected, hx, _⟩ := hr.membership
    obtain ⟨mode, hmode, _⟩ := hr.precondition
    refine ⟨(status, membershipEffectOf request status, expected), ⟨hsize, hreceipt, status, h.codes.status, certainty,
      h.codes.certainty, retry, h.codes.retry, h.combination, h.stableKey, h.error,
      (validateEffects_ok hr.supported).mpr h.effects, _, h.codes.membership, expected, hx, rfl⟩,
      _, (expectedMembershipEffect_ok hx).mpr ⟨validCombination_specified h.combination, rfl⟩, rfl,
      fun hstatus => ?_, h.receipt⟩
    obtain ⟨hrev, hsucc⟩ := h.settled hstatus
    exact ⟨hrev, mode, hmode, fun he => hsucc (he ▸ hmode)⟩

/-- **What a write may report.** For an accepted request, within its limits,
a response is accepted exactly when it is one of the four reports, and it is
then no other. -/
theorem targetedStateWriteResponse_iff {request : WriteTargetedStateRequest}
    {capability : TargetedStateWriteCapability} {response : WriteTargetedStateResponse} :
    targetedStateWriteResponse request capability response = .ok () ↔
      targetedStateWriteRequest request capability = .ok () ∧
      Prost.responseLen response ≤ request.maximumResponseBytes.toNat ∧
      response.receipt.length ≤ request.maximumReceiptBytes.toNat ∧
      ∃! report : WriteReport, report.Holds request capability response := by
  have hunique : (∃ report : WriteReport, report.Holds request capability response) ↔
      ∃! report : WriteReport, report.Holds request capability response := by
    refine ⟨fun h => ?_, fun h => h.exists⟩
    obtain ⟨report, h⟩ := h
    refine ⟨report, h, fun report' h' => ?_⟩
    obtain ⟨status, hs, hr⟩ := WriteReport.Holds.of h
    obtain ⟨status', hs', hr'⟩ := WriteReport.Holds.of h'
    rw [hs] at hs'
    cases hs'
    exact hr'.unique hr
  rw [targetedStateWriteResponse_ok, targetedStateWriteRequest_ok, passes_iff_report, hunique]

end ProviderSdk
