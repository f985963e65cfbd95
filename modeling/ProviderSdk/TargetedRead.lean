/-
What a targeted read may answer (`validation.rs`).

A match answers the fields of its request one by one, in their order; the
loop over both lists is what keeps an observation from being taken for that
of another field. An answer that says a write happened has to have been
asked for, and to name the revision it is about.
-/
import ProviderSdk.Reconciliation

namespace ProviderSdk

open Checks V1

/-- The encodings an answer is checked by: the bytes of a subject, and the
encoded length of the answer. -/
class ProstRead extends Prost where
  subjectToVec : SubjectReference → List UInt8
  readResponseLen : ReadTargetedStateResponse → Nat

/-! ## The checks -/

/-- The body of the loop over the requested fields and their observations. -/
def checkObservation (membership : SourceMembership) (requested : StateField)
    (observation : TargetedStateFieldObservation) : Except ValidationError Unit := do
  let field ← okOr observation.field (.missing "targeted state field")
  validateStateField field
  reject (field ≠ requested) .targetedStateFieldMismatch
  let presence ← okOr (StatePresence.tryFrom observation.presence) (.invalid "targeted state presence")
  reject (presence = .unspecified) (.invalid "targeted state presence")
  reject (decide (presence = .present) ≠ observation.value.isSome) (.invalid "targeted state presence value")
  reject (membership = .absent ∧ presence = .present) (.invalid "absent membership with present state")
  reject (observation.value.any fun value => value.value.isNone) (.missing "targeted state value")

/-- The `match` on the reconciliation key and the write causation. -/
def checkCausation (idempotencyKey providerRevision : List UInt8)
    (writeCausation : Option TargetedStateWriteCausation) : Except ValidationError Unit :=
  match idempotencyKey, writeCausation with
  | [], none => pure ()
  | [], some _ => throw (.invalid "unsolicited targeted state write causation")
  | _ :: _, some causation =>
    reject (¬ (causation.idempotencyKey = idempotencyKey ∧ ¬ causation.receipt.isEmpty ∧
      causation.providerRevision = providerRevision)) (.invalid "targeted state write causation")
  | _ :: _, none => pure ()

def checkMatched (request : ReadTargetedStateRequest) (response : TargetedStateReadMatched) :
    Except ValidationError Unit := do
  let membership ← okOr (SourceMembership.tryFrom response.membership) (.invalid "targeted state membership")
  reject (membership = .unspecified) (.invalid "targeted state membership")
  reject (response.fields.length ≠ request.fields.length) .targetedStateFieldCount
  (request.fields.zip response.fields).forM fun (requested, observation) =>
    checkObservation membership requested observation
  reject response.providerRevision.isEmpty (.empty "targeted state provider revision")
  checkCausation request.reconciliationIdempotencyKey response.providerRevision response.writeCausation
  reject (response.expiresTimeMilliseconds.any fun expires => expires ≤ response.observedTimeMilliseconds)
    (.invalid "targeted state expiry")

section

variable [ProstRead]

/-- The body of the loop over the candidates. -/
def scanCandidate (candidates : HashSet (List UInt8)) (candidate : SubjectReference) :
    Except ValidationError (HashSet (List UInt8)) := do
  validateSubject candidate
  let (candidates, fresh) := candidates.insert (ProstRead.subjectToVec candidate)
  reject (¬ fresh) (.duplicate "targeted state ambiguous candidate")
  pure candidates

def readTargetedStateResponse (request : ReadTargetedStateRequest) (response : ReadTargetedStateResponse) :
    Except ValidationError Unit := do
  reject (ProstRead.readResponseLen response > request.maximumResponseBytes.toNat)
    (.targetedStateResponseTooLarge (ProstRead.readResponseLen response) request.maximumResponseBytes)
  let outcome ← okOr response.outcome (.missing "targeted state read outcome")
  (match outcome with
    | .matched response => checkMatched request response
    | .unsupported | .notFound => pure ()
    | .ambiguous ambiguous => do
      reject (ambiguous.candidates.length < 2) .insufficientCandidates
      discard <| ambiguous.candidates.foldlM scanCandidate .new
    | .indeterminate indeterminate => do
      adapterError (← okOr indeterminate.error (.missing "targeted state indeterminate error")))

end

/-! ## Matches -/

/-- An observation of a field: what is there, if anything is. -/
structure Observes (membership : SourceMembership) (field : StateField)
    (observation : TargetedStateFieldObservation) : Prop where
  field : observation.field = some field
  presence : ∃ presence, StatePresence.tryFrom observation.presence = some presence ∧ presence ≠ .unspecified ∧
    (presence = .present ↔ observation.value.isSome = true) ∧ (membership = .absent → presence ≠ .present)
  concrete : ∀ value, observation.value = some value → value.value.isSome = true

/-- The causation of a match, as far as it was asked for. -/
def Caused (idempotencyKey providerRevision : List UInt8) (causation : TargetedStateWriteCausation) : Prop :=
  idempotencyKey ≠ [] ∧ causation.idempotencyKey = idempotencyKey ∧ causation.receipt ≠ [] ∧
    causation.providerRevision = providerRevision

/-- A match answers a request. -/
structure Answers (request : ReadTargetedStateRequest) (response : TargetedStateReadMatched) : Prop where
  fields : ∃ membership, SourceMembership.tryFrom response.membership = some membership ∧
    membership ≠ .unspecified ∧ List.Forall₂ (Observes membership) request.fields response.fields
  providerRevision : response.providerRevision ≠ []
  expiry : ∀ expires, response.expiresTimeMilliseconds = some expires → response.observedTimeMilliseconds < expires
  causation : ∀ causation, response.writeCausation = some causation →
    Caused request.reconciliationIdempotencyKey response.providerRevision causation

theorem checkObservation_ok {membership : SourceMembership} {requested : StateField} (hw : requested.WellFormed)
    {observation : TargetedStateFieldObservation} {u : Unit} :
    checkObservation membership requested observation = .ok u ↔ Observes membership requested observation := by
  have hvalue : ¬ (observation.value.any fun value => value.value.isNone) = true ↔
      ∀ value, observation.value = some value → value.value.isSome = true := by
    cases observation.value <;> simp [Option.isSome_iff_ne_none]
  have hpresent : ∀ presence : StatePresence, decide (presence = .present) = observation.value.isSome ↔
      (presence = .present ↔ observation.value.isSome = true) := fun presence => by
    cases observation.value <;> simp
  simp only [checkObservation, bind_ok, okOr_ok, validateStateField_ok, exists_const, reject_ok, not_not, ne_eq,
    not_and, hvalue, hpresent]
  refine ⟨fun h => ?_, fun h => ?_⟩
  · obtain ⟨field, hf, _, he, presence, hp, h₁, h₂, h₃, h₄⟩ := h
    exact ⟨he ▸ hf, ⟨presence, hp, h₁, h₂, h₃⟩, h₄⟩
  · obtain ⟨presence, hp, h₁, h₂, h₃⟩ := h.presence
    exact ⟨requested, h.field, hw, rfl, presence, hp, h₁, h₂, h₃, h.concrete⟩

theorem checkCausation_ok {idempotencyKey providerRevision : List UInt8}
    {writeCausation : Option TargetedStateWriteCausation} {u : Unit} :
    checkCausation idempotencyKey providerRevision writeCausation = .ok u ↔
      ∀ causation, writeCausation = some causation → Caused idempotencyKey providerRevision causation := by
  unfold checkCausation Caused
  cases idempotencyKey <;> cases writeCausation <;> simp

theorem checkMatched_ok {request : ReadTargetedStateRequest} (hw : ∀ f ∈ request.fields, f.WellFormed)
    {response : TargetedStateReadMatched} {u : Unit} :
    checkMatched request response = .ok u ↔ Answers request response := by
  have hloop : ∀ membership, (response.fields.length = request.fields.length ∧
      ∀ pair ∈ request.fields.zip response.fields, checkObservation membership pair.1 pair.2 = .ok ()) ↔
      List.Forall₂ (Observes membership) request.fields response.fields := fun membership => by
    rw [List.forall₂_iff_zip]
    refine and_congr eq_comm ⟨fun h f o hm => ?_, fun h pair hm => ?_⟩
    · exact (checkObservation_ok (hw f (List.of_mem_zip hm).1)).mp (h _ hm)
    · exact (checkObservation_ok (hw pair.1 (List.of_mem_zip hm).1)).mpr (h hm)
  have hexpiry : ¬ (response.expiresTimeMilliseconds.any fun expires =>
      expires ≤ response.observedTimeMilliseconds) = true ↔ ∀ expires,
      response.expiresTimeMilliseconds = some expires → response.observedTimeMilliseconds < expires := by
    cases response.expiresTimeMilliseconds <;> simp
  simp only [checkMatched, bind_ok, okOr_ok, reject_ok, not_not, ne_eq, exists_const, forM_ok, hexpiry,
    checkCausation_ok, List.isEmpty_iff]
  refine ⟨fun h => ?_, fun h => ?_⟩
  · obtain ⟨membership, hm, hne, hlen, hall, hr, hc, he⟩ := h
    exact ⟨⟨membership, hm, hne, (hloop membership).mp ⟨hlen, hall⟩⟩, hr, he, hc⟩
  · obtain ⟨membership, hm, hne, hall⟩ := h.fields
    obtain ⟨hlen, hall⟩ := (hloop membership).mpr hall
    exact ⟨membership, hm, hne, hlen, hall, h.providerRevision, h.causation, h.expiry⟩

/-- The observations of a match are those of the requested fields, one for
one. -/
theorem Answers.map_field {request : ReadTargetedStateRequest} {response : TargetedStateReadMatched}
    (h : Answers request response) : response.fields.map (·.field) = request.fields.map some := by
  obtain ⟨membership, _, _, hall⟩ := h.fields
  have hfields : List.Forall₂ (· = ·) (response.fields.map (·.field)) (request.fields.map some) := by
    rw [List.forall₂_map_left_iff, List.forall₂_map_right_iff]
    exact (hall.imp fun _ _ ho => ho.field).flip
  rwa [List.forall₂_eq_eq_eq] at hfields

/-- Each requested field has one observation. -/
theorem Answers.observed_once {request : ReadTargetedStateRequest} {response : TargetedStateReadMatched}
    (h : Answers request response) (hd : request.fields.Nodup) {field : StateField} (hf : field ∈ request.fields) :
    ∃ observation, response.fields.filter (·.field = some field) = [observation] := by
  have hmap := h.map_field
  have hdistinct : (response.fields.map (·.field)).Nodup := hmap ▸ hd.map (Option.some_injective _)
  have hm : some field ∈ response.fields.map (·.field) := hmap ▸ List.mem_map_of_mem hf
  obtain ⟨observation, ho, he⟩ := List.mem_map.mp hm
  exact ⟨observation, (filter_key hdistinct).mpr ⟨ho, he⟩⟩

/-! ## Answers -/

section

variable [ProstRead]

theorem scanCandidate_guarded : Guarded scanCandidate
    (fun candidates s => s.WellFormed ∧ ProstRead.subjectToVec s ∉ candidates)
    (fun candidates s => (candidates.insert (ProstRead.subjectToVec s)).1) where
  ok_iff := by simp [scanCandidate, and_assoc]

/-- Subjects told apart by their bytes are told apart. -/
theorem scanCandidates_ok (hs : Function.Injective ProstRead.subjectToVec) {candidates : List SubjectReference} :
    (∃ seen, candidates.foldlM scanCandidate .new = .ok seen) ↔
      (∀ s ∈ candidates, s.WellFormed) ∧ candidates.Nodup := by
  simp only [scanCandidate_guarded.foldlM_after (b := .new) (fun pre => .collect (pre.map ProstRead.subjectToVec)) rfl
    fun pre s => by simp, HashSet.mem_collect, each_and, each_forall, each_fresh, List.nodup_map_iff hs]
  exact ⟨fun h => h.choose_spec.1, fun h => ⟨_, h, rfl⟩⟩

/-- What each kind of answer has to be. -/
def V1.TargetedStateReadOutcome.Accepted (request : ReadTargetedStateRequest) : TargetedStateReadOutcome → Prop
  | .matched m => Answers request m
  | .unsupported | .notFound => True
  | .ambiguous a => 2 ≤ a.candidates.length ∧ (∀ s ∈ a.candidates, s.WellFormed) ∧ a.candidates.Nodup
  | .indeterminate i => ∃ error, i.error = some error ∧ error.WellFormed

theorem readTargetedStateResponse_ok (hs : Function.Injective ProstRead.subjectToVec)
    {request : ReadTargetedStateRequest} (hw : ∀ f ∈ request.fields, f.WellFormed)
    {response : ReadTargetedStateResponse} {u : Unit} :
    readTargetedStateResponse request response = .ok u ↔
      ProstRead.readResponseLen response ≤ request.maximumResponseBytes.toNat ∧
        ∃ outcome, response.outcome = some outcome ∧ outcome.Accepted request := by
  simp only [readTargetedStateResponse, bind_ok, reject_ok, gt_iff_lt, Nat.not_lt, exists_const, okOr_ok]
  refine and_congr_right fun _ => exists_congr fun outcome => and_congr_right fun _ => ?_
  cases outcome with
  | matched matched => exact checkMatched_ok hw
  | unsupported => simp [TargetedStateReadOutcome.Accepted]
  | notFound => simp [TargetedStateReadOutcome.Accepted]
  | ambiguous ambiguous =>
    simp only [bind_ok, reject_ok, Nat.not_lt, exists_const, discard_ok, scanCandidates_ok hs,
      TargetedStateReadOutcome.Accepted]
  | indeterminate indeterminate =>
    simp only [bind_ok, okOr_ok, adapterError_ok, TargetedStateReadOutcome.Accepted]

/-- **What a targeted read may answer.** For an accepted request, an answer
is accepted exactly when it fits and is one of the five, in order; and a
match has one observation for each field that was asked for. -/
theorem readTargetedStateResponse_iff (hs : Function.Injective ProstRead.subjectToVec)
    {request : ReadTargetedStateRequest} {capability : TargetedStateReadCapability}
    (h : targetedStateReadRequest request capability = .ok ()) (response : ReadTargetedStateResponse) :
    (readTargetedStateResponse request response = .ok () ↔
      ProstRead.readResponseLen response ≤ request.maximumResponseBytes.toNat ∧
      (response.outcome = some .unsupported ∨ response.outcome = some .notFound ∨
        (∃ ambiguous, response.outcome = some (.ambiguous ambiguous) ∧ 2 ≤ ambiguous.candidates.length ∧
          (∀ s ∈ ambiguous.candidates, s.WellFormed) ∧ ambiguous.candidates.Nodup) ∨
        (∃ indeterminate error, response.outcome = some (.indeterminate indeterminate) ∧
          indeterminate.error = some error ∧ error.WellFormed) ∨
        ∃ matched, response.outcome = some (.matched matched) ∧
          (∃ membership, SourceMembership.tryFrom matched.membership = some membership ∧
            membership ≠ .unspecified ∧ List.Forall₂ (Observes membership) request.fields matched.fields) ∧
          matched.providerRevision ≠ [] ∧
          (∀ expires, matched.expiresTimeMilliseconds = some expires →
            matched.observedTimeMilliseconds < expires) ∧
          ∀ causation, matched.writeCausation = some causation →
            request.reconciliationIdempotencyKey ≠ [] ∧
            causation.idempotencyKey = request.reconciliationIdempotencyKey ∧ causation.receipt ≠ [] ∧
            causation.providerRevision = matched.providerRevision)) ∧
    (readTargetedStateResponse request response = .ok () →
      ∀ matched, response.outcome = some (.matched matched) → ∀ field ∈ request.fields,
        ∃ observation, matched.fields.filter (·.field = some field) = [observation]) := by
  have hr := targetedStateReadRequest_ok.mp h
  rw [readTargetedStateResponse_ok hs hr.wellFormed]
  refine ⟨and_congr_right fun _ => ⟨fun ho => ?_, fun ho => ?_⟩, fun ho matched hm field hf => ?_⟩
  · obtain ⟨outcome, ho, ha⟩ := ho
    cases outcome with
    | matched matched =>
      exact .inr (.inr (.inr (.inr ⟨matched, ho, ha.fields, ha.providerRevision, ha.expiry, ha.causation⟩)))
    | unsupported => exact .inl ho
    | notFound => exact .inr (.inl ho)
    | ambiguous ambiguous => exact .inr (.inr (.inl ⟨ambiguous, ho, ha⟩))
    | indeterminate indeterminate =>
      obtain ⟨error, he, hw⟩ := ha
      exact .inr (.inr (.inr (.inl ⟨indeterminate, error, ho, he, hw⟩)))
  · rcases ho with ho | ho | ⟨_, ho, ha⟩ | ⟨_, error, ho, he, hw⟩ | ⟨_, ho, hf, hp, he, hc⟩
    · exact ⟨_, ho, trivial⟩
    · exact ⟨_, ho, trivial⟩
    · exact ⟨_, ho, ha⟩
    · exact ⟨_, ho, error, he, hw⟩
    · exact ⟨_, ho, hf, hp, he, hc⟩
  · obtain ⟨_, outcome, ho, ha⟩ := ho
    rw [hm] at ho
    cases ho
    exact ha.observed_once hr.distinct.of_map hf

end

instance : ProstRead where
  subjectToVec := Proto3.longSubjectReference
  readResponseLen r := (Proto3.readResponse r).length

def sampleRead (reconciliationIdempotencyKey : List UInt8) : ReadTargetedStateRequest where
  operationId := [1]
  sourceKey := some ⟨"sample", [1]⟩
  subject := some ⟨some (.providerItemKey ⟨"sample", [2]⟩)⟩
  fields := [sampleField]
  maximumResponseBytes := 4096
  reconciliationIdempotencyKey

/-- The field is absent, and a write says so. -/
def sampleAnswer (idempotencyKey : List UInt8) : ReadTargetedStateResponse :=
  ⟨some (.matched
    { membership := 1
      fields := [⟨some sampleField, 3, none⟩]
      providerRevision := [1]
      observedTimeMilliseconds := 0
      expiresTimeMilliseconds := some 1
      precondition := []
      writeCausation := some ⟨idempotencyKey, [2], [1]⟩ })⟩

/-- What a write left behind is taken from the answer to the read that asked
for that write. -/
theorem sampleAnswer_accepted :
    readTargetedStateResponse (sampleRead (List.replicate 16 7)) (sampleAnswer (List.replicate 16 7)) = .ok () ∧
      readTargetedStateResponse (sampleRead []) (sampleAnswer []) ≠ .ok () := by
  have hasked : targetedStateReadRequest (sampleRead (List.replicate 16 7)) sampleReads = .ok () := rfl
  have hunasked : targetedStateReadRequest (sampleRead []) sampleReads = .ok () := rfl
  refine ⟨(readTargetedStateResponse_iff Proto3.longSubjectReference_injective hasked _).1.mpr ⟨by decide, ?_⟩,
    fun h => ?_⟩
  · refine .inr (.inr (.inr (.inr ⟨_, rfl, ⟨.present, rfl, by decide, .cons ?_ .nil⟩, by decide, ?_, ?_⟩)))
    · exact ⟨rfl, ⟨.absent, rfl, by decide, by decide, by decide⟩, nofun⟩
    · intro expires he
      cases he
      decide
    · intro causation hc
      cases hc
      exact ⟨by decide, rfl, by decide, rfl⟩
  · obtain ⟨_, ho⟩ := (readTargetedStateResponse_iff Proto3.longSubjectReference_injective hunasked _).1.mp h
    rcases ho with ho | ho | ⟨_, ho, _⟩ | ⟨_, _, ho, _⟩ | ⟨_, ho, _, _, _, hc⟩
    · cases ho
    · cases ho
    · cases ho
    · cases ho
    · cases ho
      exact (hc _ rfl).1 rfl

end ProviderSdk
