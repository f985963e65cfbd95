/-
A write that is sent again (`validation.rs`).

Of the reports a response validator accepts, one calls for the same write
again: a failure that changed nothing, at a provider that keeps keys stable.
So all the sends of a write come to one, whatever others write in between
(`retried_write`); and where that one stays unsettled, an answer to the read
that reconciles it says that it was carried out only if it was
(`reconciled_write`).

A provider is trusted here to be right where it is certain: in an accepted
response that confirms, and in a match. A response that is lost, refused or
unsure tells nothing.
-/
import ProviderSdk.Lib.Retry
import ProviderSdk.TargetedRead
import ProviderSdk.WriteOutcome

namespace ProviderSdk

open Checks V1 Relation

/-! ## What a provider holds -/

/-- The fields of a subject, and the keys of the writes carried out on it. -/
structure Held where
  values : StateField → Option Value
  writes : List (List UInt8)

/-- The value an operation leaves. -/
def V1.TargetedStateWriteOperation.leaves : TargetedStateWriteOperation → Option Value
  | .set value => some value
  | .clear => none

theorem leaves_eq_some {operation : Option TargetedStateWriteOperation} {value : Value} :
    operation.bind (·.leaves) = some value ↔ operation = some (.set value) := by
  rcases operation with _ | ⟨_ | _⟩ <;> simp [TargetedStateWriteOperation.leaves]

/-- What leaves nothing, of what a capability supports, clears. -/
theorem V1.TargetedStateWriteIntent.SupportedBy.clears {capability : TargetedStateWriteCapability}
    {intent : TargetedStateWriteIntent} (h : intent.SupportedBy capability)
    (hleaves : intent.operation.bind (·.leaves) = none) : intent.operation = some .clear := by
  obtain ⟨_, _, _, _, _, ⟨value, ho, _⟩ | ⟨ho, _⟩⟩ := h.supported
  · rw [leaves_eq_some.mpr ho] at hleaves
    cases hleaves
  · exact ho

def Held.carryOut (held : Held) (request : WriteTargetedStateRequest) : Held where
  values field := match request.intents.find? (·.field = some field) with
    | some intent => intent.operation.bind (·.leaves)
    | none => held.values field
  writes := held.writes ++ [request.idempotencyKey]

/-- How often a write was carried out. -/
def Held.times (held : Held) (request : WriteTargetedStateRequest) : Nat := held.writes.count request.idempotencyKey

@[simp] theorem Held.carryOut_times {held : Held} {request : WriteTargetedStateRequest} :
    (held.carryOut request).times request = held.times request + 1 := by
  simp [Held.times, Held.carryOut]

/-- The fields a write names hold what it was to leave. -/
theorem Held.carryOut_values {held : Held} {request : WriteTargetedStateRequest} {intent : TargetedStateWriteIntent}
    {field : StateField} (hd : (request.intents.map (·.field)).Nodup) (hi : intent ∈ request.intents)
    (hf : intent.field = some field) :
    (held.carryOut request).values field = intent.operation.bind (·.leaves) := by
  have hfind : request.intents.find? (·.field = some field) = some intent := (find_key hd).mpr ⟨hi, hf⟩
  simp only [Held.carryOut, hfind]

/-! ## Sends -/

theorem validCombination_safeSameKey {status : TargetedStateWriteStatus} {certainty : TargetedStateWriteCertainty}
    (h : validCombination status certainty .safeSameKey = true) : certainty = .confirmedNotApplied := by
  cases status <;> cases certainty <;> simp_all [validCombination]

section

variable [Prost] {request : WriteTargetedStateRequest} {capability : TargetedStateWriteCapability}

/-- A response came that is accepted, with a certainty. -/
def Certain (request : WriteTargetedStateRequest) (capability : TargetedStateWriteCapability)
    (response : Option WriteTargetedStateResponse) (certainty : TargetedStateWriteCertainty) : Prop :=
  ∃ r, response = some r ∧ targetedStateWriteResponse request capability r = .ok () ∧
    TargetedStateWriteCertainty.tryFrom r.certainty = some certainty

/-- One send. A write may be carried out or not, except that an accepted
response is right where it is certain. -/
inductive Sent (request : WriteTargetedStateRequest) (capability : TargetedStateWriteCapability) :
    Held → Option WriteTargetedStateResponse → Held → Prop
  | kept {held : Held} {response : Option WriteTargetedStateResponse} :
    ¬ Certain request capability response .confirmedApplied → Sent request capability held response held
  | carriedOut {held : Held} {response : Option WriteTargetedStateResponse} :
    ¬ Certain request capability response .confirmedNotApplied →
    Sent request capability held response (held.carryOut request)

theorem Sent.cases {held held' : Held} {response : Option WriteTargetedStateResponse}
    (h : Sent request capability held response held') : held' = held ∨ held' = held.carryOut request := by
  cases h with
  | kept _ => exact .inl rfl
  | carriedOut _ => exact .inr rfl

theorem Sent.certain_applied {held held' : Held} {response : Option WriteTargetedStateResponse}
    (h : Sent request capability held response held')
    (hc : Certain request capability response .confirmedApplied) : held' = held.carryOut request := by
  cases h with
  | kept hn => exact absurd hc hn
  | carriedOut _ => rfl

theorem Sent.certain_notApplied {held held' : Held} {response : Option WriteTargetedStateResponse}
    (h : Sent request capability held response held')
    (hc : Certain request capability response .confirmedNotApplied) : held' = held := by
  cases h with
  | kept _ => rfl
  | carriedOut hn => exact absurd hc hn

/-- What else happens to a subject: anything but this write. -/
def Others (request : WriteTargetedStateRequest) (held held' : Held) : Prop :=
  held'.times request = held.times request

/-- A response calls for the same write again. -/
def SafeSameKey (request : WriteTargetedStateRequest) (capability : TargetedStateWriteCapability)
    (response : Option WriteTargetedStateResponse) : Prop :=
  ∃ r, response = some r ∧ targetedStateWriteResponse request capability r = .ok () ∧
    TargetedStateWriteRetryDisposition.tryFrom r.retryDisposition = some .safeSameKey

/-- A host that sends a write until no response calls for it again. -/
abbrev Sends (request : WriteTargetedStateRequest) (capability : TargetedStateWriteCapability) :
    Held → List (Option WriteTargetedStateResponse) → Option WriteTargetedStateResponse → Held → Prop :=
  Retry.Sends (Sent request capability) (Others request) (SafeSameKey request capability)

theorem SafeSameKey.certain {response : Option WriteTargetedStateResponse}
    (h : SafeSameKey request capability response) :
    Certain request capability response .confirmedNotApplied ∧
      TargetedStateWriteIdempotencyMode.tryFrom capability.idempotencyMode = some .stableKey := by
  obtain ⟨r, hr, hok, hretry⟩ := h
  obtain ⟨_, _, _, status, certainty, retry, hp⟩ := targetedStateWriteResponse_ok.mp hok
  have he : retry = .safeSameKey := Option.some.inj (hp.codes.retry.symm.trans hretry)
  subst he
  have hc := validCombination_safeSameKey hp.combination
  exact ⟨⟨r, hr, hok, hc ▸ hp.codes.certainty⟩, hp.stableKey rfl⟩

/-- A response that calls for a write again says that it changed nothing. -/
theorem safeSameKey_keeps : Retry.AgainKeeps (Sent request capability) (SafeSameKey request capability) := by
  intro held response held' hs hr
  exact hs.certain_notApplied hr.certain.1

/-- The sends of a write are one send of it, from a state with as much of it. -/
theorem sends_once {held after : Held} {earlier : List (Option WriteTargetedStateResponse)}
    {last : Option WriteTargetedStateResponse} (h : Sends request capability held earlier last after) :
    ∃ before : Held, before.times request = held.times request ∧ Sent request capability before last after := by
  obtain ⟨before, hothers, hsent⟩ := h.as_one safeSameKey_keeps
  exact ⟨before, Retry.others_keep (fun _ _ ho => ho) hothers, hsent⟩

/-! ## What a report tells -/

/-- What the report of the last send tells of the state it left. -/
def WriteReport.Tells (request : WriteTargetedStateRequest) (response : WriteTargetedStateResponse)
    (before after : Held) : WriteReport → Prop
  | .applied => after = before.carryOut request ∧
    ∀ effect ∈ response.fieldEffects, ∃ field, effect.field = some field ∧ after.values field = effect.value
  | .noOp | .refused => after = before
  | .indeterminate => after = before ∨ after = before.carryOut request

/-- The fields of an accepted write are distinct. -/
theorem V1.WriteTargetedStateRequest.Accepted.nodup (h : request.Accepted capability) :
    (request.intents.map (·.field)).Nodup := by
  have hd : ((request.intents.map (·.field)).map encodeField).Nodup := by
    rw [List.map_map]
    exact h.distinct
  exact hd.of_map

/-- What an effect reports is what carrying out its intent leaves. -/
theorem CarriesOut.values {before : Held} (hr : request.Accepted capability) {intent : TargetedStateWriteIntent}
    {effect : TargetedStateWriteFieldEffect} (hi : intent ∈ request.intents) (h : CarriesOut intent effect) :
    ∃ field, effect.field = some field ∧ (before.carryOut request).values field = effect.value := by
  obtain ⟨field, _, hf, _⟩ := (hr.supported intent hi).supported
  refine ⟨field, h.field.trans hf, ?_⟩
  rw [Held.carryOut_values hr.nodup hi hf]
  rcases h.kind with ⟨value, ho, _, hv⟩ | ⟨ho, _, hv⟩
  · rw [ho, hv]
    rfl
  · rw [ho, hv]
    rfl

theorem Sent.tells {before after : Held} {response : WriteTargetedStateResponse} {report : WriteReport}
    (h : Sent request capability before (some response) after)
    (hok : targetedStateWriteResponse request capability response = .ok ())
    (hr : report.Holds request capability response) : report.Tells request response before after := by
  have hcertain : ∀ certainty, TargetedStateWriteCertainty.tryFrom response.certainty = some certainty →
      Certain request capability (some response) certainty := fun certainty hc => ⟨response, rfl, hok, hc⟩
  cases report with
  | applied =>
    obtain ⟨hcodes, heffects, _, _⟩ := hr
    have hafter := h.certain_applied (hcertain _ hcodes.certainty)
    refine ⟨hafter, fun effect he => ?_⟩
    obtain ⟨intent, hi, hcarries⟩ := forall₂_mem_right heffects he
    rw [hafter]
    exact hcarries.values (targetedStateWriteResponse_ok.mp hok).1 hi
  | noOp => exact h.certain_notApplied (hcertain _ hr.1.certainty)
  | refused =>
    rcases hr.1 with hcodes | hcodes | ⟨hcodes, _⟩
    · exact h.certain_notApplied (hcertain _ hcodes.certainty)
    · exact h.certain_notApplied (hcertain _ hcodes.certainty)
    · exact h.certain_notApplied (hcertain _ hcodes.certainty)
  | indeterminate => exact h.cases

/-- **A retried write is one write.** However often a write is sent again
because a response called for it, and whatever others did in between, it is
carried out at most once, by the last send if at all; only a provider with
stable keys is sent it again; and an accepted report of the last send is true
of them all. -/
theorem retried_write {held after : Held} {earlier : List (Option WriteTargetedStateResponse)}
    {last : Option WriteTargetedStateResponse} (h : Sends request capability held earlier last after) :
    (earlier ≠ [] → TargetedStateWriteIdempotencyMode.tryFrom capability.idempotencyMode = some .stableKey) ∧
      ∃ before : Held, before.times request = held.times request ∧
        (after = before ∨ after = before.carryOut request) ∧
        after.times request ≤ held.times request + 1 ∧
        ∀ response report, last = some response → targetedStateWriteResponse request capability response = .ok () →
          WriteReport.Holds request capability response report → report.Tells request response before after := by
  obtain ⟨before, htimes, hsent⟩ := sends_once h
  refine ⟨fun hne => ?_, before, htimes, hsent.cases, ?_, fun response report hl hok hr => ?_⟩
  · obtain ⟨response, hm⟩ := List.exists_mem_of_ne_nil _ hne
    exact (h.earlier_again response hm).certain.2
  · rcases hsent.cases with rfl | rfl
    · omega
    · rw [Held.carryOut_times]
      omega
  · subst hl
    exact hsent.tells hok hr

end

def sampleKey : List UInt8 := List.replicate 16 7

/-- A failure before anything was written. -/
def sampleFailed : WriteTargetedStateResponse where
  status := 4
  certainty := 2
  retryDisposition := 2
  membershipEffect := 1
  fieldEffects := []
  providerRevision := []
  successorPrecondition := []
  receipt := []
  error := some ⟨5, "unavailable", "Try again.", some ⟨2, none⟩, []⟩

def sampleApplied : WriteTargetedStateResponse where
  status := 1
  certainty := 1
  retryDisposition := 1
  membershipEffect := 1
  fieldEffects := [⟨some sampleField, 2, none⟩]
  providerRevision := [1]
  successorPrecondition := []
  receipt := [2]
  error := none

/-- Every field is set, by the writes of some keys. -/
def sampleHeld (writes : List (List UInt8)) : Held := ⟨fun _ => some ⟨some (.boolean true)⟩, writes⟩

def sampleLeft (writes : List (List UInt8)) : Held := (sampleHeld writes).carryOut (sampleWrite sampleKey)

/-- A write fails, another one is carried out, and the first is sent again. -/
theorem sampleWrite_sends : Sends (sampleWrite sampleKey) sampleWrites (sampleHeld []) [some sampleFailed]
    (some sampleApplied) (sampleLeft [[9]]) := by
  have hfailed : targetedStateWriteResponse (sampleWrite sampleKey) sampleWrites sampleFailed = .ok () := rfl
  refine .again .refl (.kept fun h => ?_) ⟨_, rfl, hfailed, rfl⟩ (.last (.single ?_) (.carriedOut fun h => ?_))
  · obtain ⟨_, he, _, hc⟩ := h
    cases he
    cases hc
  · exact (rfl : (sampleHeld [[9]]).times (sampleWrite sampleKey) = (sampleHeld []).times (sampleWrite sampleKey))
  · obtain ⟨_, he, _, hc⟩ := h
    cases he
    cases hc

/-- The last response is right about both sends: the write was carried out
once, and its field is clear. -/
theorem sampleWrite_retried :
    (∃ before : Held, before.times (sampleWrite sampleKey) = 0 ∧
      sampleLeft [[9]] = before.carryOut (sampleWrite sampleKey)) ∧
      (sampleLeft [[9]]).times (sampleWrite sampleKey) ≤ 1 ∧ (sampleLeft [[9]]).values sampleField = none := by
  obtain ⟨_, before, htimes, _, honce, hreports⟩ := retried_write sampleWrite_sends
  have hok : targetedStateWriteResponse (sampleWrite sampleKey) sampleWrites sampleApplied = .ok () := rfl
  have happlied : WriteReport.Holds (sampleWrite sampleKey) sampleWrites sampleApplied .applied :=
    ⟨⟨rfl, rfl, rfl, rfl⟩, .cons ⟨rfl, .inr ⟨rfl, rfl, rfl⟩⟩ .nil, ⟨rfl, by decide, by decide⟩, by decide⟩
  obtain ⟨hafter, heffects⟩ := hreports sampleApplied .applied rfl hok happlied
  obtain ⟨field, hf, hvalue⟩ := heffects _ List.mem_cons_self
  cases hf
  exact ⟨⟨before, htimes, hafter⟩, honce, hvalue⟩

/-! ## Reconciling -/

/-- A match that observes what is held where it calls a field present or
absent, and names writes carried out. Of a field it calls anything else
(deleted, unknown or stale) it tells nothing. -/
structure Truthful (held : Held) (matched : TargetedStateReadMatched) : Prop where
  values : ∀ observation ∈ matched.fields, ∀ field presence, observation.field = some field →
    StatePresence.tryFrom observation.presence = some presence → presence = .present ∨ presence = .absent →
    observation.value = held.values field
  causation : ∀ causation, matched.writeCausation = some causation → causation.idempotencyKey ∈ held.writes

section

variable [ProstRead] {request : WriteTargetedStateRequest} {capability : TargetedStateWriteCapability}

theorem readTargetedStateResponse_matched {request : ReadTargetedStateRequest} {response : ReadTargetedStateResponse}
    {matched : TargetedStateReadMatched} {u : Unit} (hw : ∀ f ∈ request.fields, f.WellFormed)
    (hm : response.outcome = some (.matched matched)) (h : readTargetedStateResponse request response = .ok u) :
    Answers request matched := by
  simp only [readTargetedStateResponse, hm, bind_ok, reject_ok, exists_const, okOr_ok, Option.some.injEq,
    exists_eq_left'] at h
  exact (checkMatched_ok hw).mp h.2

/-- The fields of the read that reconciles an accepted write. -/
theorem reconciliationRead_fields (hr : request.Accepted capability) (limit : UInt64) :
    (∀ f ∈ (reconciliationRead request limit).fields, f.WellFormed) ∧ (reconciliationRead request limit).fields.Nodup ∧
      ∀ intent ∈ request.intents, ∃ field, intent.field = some field ∧
        field ∈ (reconciliationRead request limit).fields := by
  refine ⟨fun f hf => ?_, hr.fields_distinct.of_map, fun intent hi => ?_⟩
  · obtain ⟨intent, hi, hf⟩ := List.mem_filterMap.mp hf
    obtain ⟨field, _, hfield, hw, _⟩ := (hr.supported intent hi).supported
    rw [hf] at hfield
    cases hfield
    exact hw
  · obtain ⟨field, _, hf, _⟩ := (hr.supported intent hi).supported
    exact ⟨field, hf, List.mem_filterMap.mpr ⟨intent, hi, hf⟩⟩

/-- **A reconciled write is settled.** Where a match of the read that
reconciles a write names a write as its cause, that write is this one, and it
was carried out exactly once, however often it was sent and whatever came of
its responses. Until others act, each of its fields is observed once; where
that observation calls it present the write has set it to the value observed,
where it calls it absent the write has cleared it. -/
theorem reconciled_write {held after later : Held} {earlier : List (Option WriteTargetedStateResponse)}
    {last : Option WriteTargetedStateResponse} {limit : UInt64} {answer : ReadTargetedStateResponse}
    {matched : TargetedStateReadMatched} {causation : TargetedStateWriteCausation}
    (hw : targetedStateWriteRequest request capability = .ok ()) (hfresh : held.times request = 0)
    (hsends : Sends request capability held earlier last after) (hlater : Others request after later)
    (hread : readTargetedStateResponse (reconciliationRead request limit) answer = .ok ())
    (hm : answer.outcome = some (.matched matched)) (htrue : Truthful later matched)
    (hc : matched.writeCausation = some causation) :
    causation.idempotencyKey = request.idempotencyKey ∧ causation.receipt ≠ [] ∧
      causation.providerRevision = matched.providerRevision ∧ later.times request = 1 ∧
      (later = after → ∀ intent ∈ request.intents, ∃ observation,
        matched.fields.filter (·.field = intent.field) = [observation] ∧
        (StatePresence.tryFrom observation.presence = some .present →
          ∃ value, intent.operation = some (.set value) ∧ observation.value = some value) ∧
        (StatePresence.tryFrom observation.presence = some .absent →
          intent.operation = some .clear ∧ observation.value = none)) := by
  have hr := targetedStateWriteRequest_ok.mp hw
  obtain ⟨hwell, hdistinct, hnamed⟩ := reconciliationRead_fields hr limit
  have hanswers := readTargetedStateResponse_matched hwell hm hread
  obtain ⟨_, hkey, hreceipt, hrevision⟩ := hanswers.causation _ hc
  have htaken : 0 < later.times request := by
    have hmem := htrue.causation _ hc
    rw [hkey] at hmem
    exact List.count_pos_iff.mpr hmem
  obtain ⟨before, hbefore, hsent⟩ := sends_once hsends
  have hlater : later.times request = after.times request := hlater
  -- The key is there, so the last send carried the write out.
  have hafter : after = before.carryOut request := by
    rcases hsent.cases with rfl | h
    · omega
    · exact h
  have honce : later.times request = 1 := by
    rw [hlater, hafter, Held.carryOut_times]
    omega
  refine ⟨hkey, hreceipt, hrevision, honce, fun he intent hi => ?_⟩
  obtain ⟨field, hf, hmem⟩ := hnamed intent hi
  obtain ⟨observation, hone⟩ := hanswers.observed_once hdistinct hmem
  have ho : observation ∈ matched.fields.filter (·.field = some field) := hone ▸ List.mem_singleton_self _
  obtain ⟨hin, hfield⟩ := List.mem_filter.mp ho
  obtain ⟨_, _, _, hall⟩ := hanswers.fields
  obtain ⟨_, _, hobserves⟩ := forall₂_mem_right hall hin
  obtain ⟨presence, hp, _, hvalue, _⟩ := hobserves.presence
  have hleft : presence = .present ∨ presence = .absent → observation.value = intent.operation.bind (·.leaves) := by
    intro hknown
    rw [htrue.values observation hin field presence (of_decide_eq_true hfield) hp hknown, he, hafter]
    exact Held.carryOut_values hr.nodup hi hf
  refine ⟨observation, hf ▸ hone, fun hpresent => ?_, fun habsent => ?_⟩
  · cases hp.symm.trans hpresent
    obtain ⟨value, hv⟩ := Option.isSome_iff_exists.mp (hvalue.mp rfl)
    exact ⟨value, leaves_eq_some.mp (hleft (.inl rfl) ▸ hv), hv⟩
  · cases hp.symm.trans habsent
    have hnone : observation.value = none := by
      rw [← Option.not_isSome_iff_eq_none, ← hvalue]
      decide
    exact ⟨(hr.supported intent hi).clears (hleft (.inr rfl) ▸ hnone), hnone⟩

end

/-- A write whose response is lost is found carried out, and its field clear. -/
theorem sampleWrite_settled :
    (sampleLeft []).times (sampleWrite sampleKey) = 1 ∧ ∃ matched observation, (sampleAnswer sampleKey).outcome =
      some (.matched matched) ∧ matched.fields.filter (·.field = some sampleField) = [observation] ∧
      observation.value = none := by
  have hsends : Sends (sampleWrite sampleKey) sampleWrites (sampleHeld []) [] none (sampleLeft []) :=
    .last .refl (.carriedOut fun h => nomatch h.choose_spec.1)
  have htrue : ∀ matched, (sampleAnswer sampleKey).outcome = some (.matched matched) →
      Truthful (sampleLeft []) matched := by
    intro matched hm
    cases hm
    refine ⟨fun observation ho field presence hf _ _ => ?_, fun causation hc => ?_⟩
    · cases List.mem_singleton.mp ho
      cases hf
      rfl
    · cases hc
      exact List.mem_singleton_self _
  have hread : readTargetedStateResponse (reconciliationRead (sampleWrite sampleKey) 4096) (sampleAnswer sampleKey) =
    .ok () := rfl
  obtain ⟨_, _, _, honce, hfields⟩ := reconciled_write rfl rfl hsends rfl hread rfl (htrue _ rfl) rfl
  obtain ⟨observation, hone, _, habsent⟩ := hfields rfl _ List.mem_cons_self
  have ho := List.mem_singleton.mp (List.mem_filter.mp (hone ▸ List.mem_singleton_self observation)).1
  exact ⟨honce, _, observation, rfl, hone, (habsent (ho ▸ rfl)).2⟩

end ProviderSdk
