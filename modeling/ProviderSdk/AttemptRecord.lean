/-
What a host records of an attempt (`completion_operation.rs`,
`completion_wire.rs`).

Reports on an attempt are answers to calls, so they are lost, repeated and
arrive in any order. A host decodes each, checks it as a transition from the
report it has on record, and records it if it passes. The record is then a
report that none of those that arrived goes beyond (`recordReports_maximal`);
if all of them come from one run of the provider's, it says what the
furthest of them says, whatever their order (`ReportRun.recorded`).
-/
import ProviderSdk.Lib.Register
import ProviderSdk.OutcomeWire

namespace ProviderSdk

open Checks Codec Register

variable {V : Type}

/-! ## The record -/

/-- Whether a report passes as the next after the one on record. -/
def followsRecord (operation : PreparedOperation V) (attempt : Identity) (previous : Option AttemptOutcome)
    (current : AttemptOutcome) : Bool :=
  (validateAttemptOutcome operation attempt previous current).isOk

/-- The record after a message arrives. -/
def recordReport (operation : PreparedOperation V) (attempt : Identity) (record : Option AttemptOutcome)
    (message : V1.CompletionAttemptOutcome) : Option AttemptOutcome :=
  match decodeOutcome operation attempt message with
  | .ok current => take (followsRecord operation attempt) record current
  | .error _ => record

def recordReports (operation : PreparedOperation V) (attempt : Identity)
    (messages : List V1.CompletionAttemptOutcome) : Option AttemptOutcome :=
  messages.foldl (recordReport operation attempt) none

/-- A message that is decoded as a report of a request that was dispatched. -/
def Reports (operation : PreparedOperation V) (attempt : Identity) (message : V1.CompletionAttemptOutcome)
    (o : AttemptOutcome) : Prop :=
  decodeOutcome operation attempt message = .ok o ∧ o.lifecycle ≠ .notDispatched

variable {operation : PreparedOperation V} {attempt : Identity} {a b o r : AttemptOutcome}
  {messages : List V1.CompletionAttemptOutcome}

theorem followsRecord_iff {previous : Option AttemptOutcome} : followsRecord operation attempt previous o = true ↔
    validateAttemptOutcome operation attempt previous o = .ok () := by
  rw [followsRecord, isOk_iff]
  simp

/-- The check on transitions orders the reports by their evidence. -/
theorem followsRecord_ordered : Ordered (followsRecord operation attempt) (Reported operation attempt)
    AttemptOutcome.evidence where
  first := followsRecord_iff.trans validateAttemptOutcome_none
  next := followsRecord_iff.trans validateAttemptOutcome_some

theorem decodeOutcome_valid {message : V1.CompletionAttemptOutcome}
    (h : decodeOutcome operation attempt message = .ok o) : o.validateFor operation attempt = .ok () := by
  simp only [decodeOutcome, bind_ok, fromOperation_ok, pure_ok] at h
  obtain ⟨_, _, _, _, _, _, _, _, _, _, _, _, _, _, _, _, _, _, _, hv, rfl⟩ := h
  exact hv

theorem Reports.reported {message : V1.CompletionAttemptOutcome} (h : Reports operation attempt message o) :
    Reported operation attempt o :=
  ⟨decodeOutcome_valid h.1, h.2⟩

/-- What is decoded of the messages. -/
def decoded (operation : PreparedOperation V) (attempt : Identity) (messages : List V1.CompletionAttemptOutcome) :
    List AttemptOutcome :=
  messages.filterMap fun message => (decodeOutcome operation attempt message).toOption

theorem mem_decoded : o ∈ decoded operation attempt messages ↔
    ∃ message ∈ messages, decodeOutcome operation attempt message = .ok o := by
  rw [decoded, List.mem_filterMap]
  refine exists_congr fun message => and_congr_right fun _ => ?_
  cases decodeOutcome operation attempt message <;> simp [Except.toOption]

/-- The host's record is a register of what it decodes. -/
theorem recordReports_eq : recordReports operation attempt messages =
    holds (followsRecord operation attempt) (decoded operation attempt messages) := by
  rw [recordReports, holds, decoded, List.foldl_filterMap]
  congr
  funext record message
  rw [recordReport]
  cases decodeOutcome operation attempt message <;> rfl

/-- The items the record may take are the reports among the messages. -/
theorem mem_reports : o ∈ taken (Reported operation attempt) (decoded operation attempt messages) ↔
    ∃ message ∈ messages, Reports operation attempt message o := by
  rw [mem_taken, mem_decoded]
  refine ⟨fun h => ?_, fun h => ?_⟩
  · obtain ⟨⟨message, hm, hd⟩, hr⟩ := h
    exact ⟨message, hm, hd, hr.dispatched⟩
  · obtain ⟨message, hm, hr⟩ := h
    exact ⟨⟨message, hm, hr.1⟩, hr.reported⟩

theorem recordReports_none : recordReports operation attempt messages = none ↔
    ∀ message ∈ messages, ∀ o, ¬ Reports operation attempt message o := by
  rw [recordReports_eq, followsRecord_ordered.holds_none]
  refine ⟨fun h message hm o hr => ?_, fun h o ho hr => ?_⟩
  · exact h o (mem_decoded.mpr ⟨message, hm, hr.1⟩) hr.reported
  · obtain ⟨message, hm, hd⟩ := mem_decoded.mp ho
    exact h message hm o ⟨hd, hr.dispatched⟩

/-- What is on record was sent as one of the messages. -/
theorem recordReports_some (h : recordReports operation attempt messages = some r) :
    r.into ∈ messages ∧ Reports operation attempt r.into r := by
  rw [recordReports_eq] at h
  obtain ⟨message, hm, hreports⟩ := mem_reports.mp (followsRecord_ordered.holds_mem h)
  obtain rfl := decodeOutcome_restores.of_ok hreports.1
  exact ⟨hm, hreports⟩

/-- **Nothing that arrived goes beyond the record.** Whatever messages reach
a host in whatever order, nothing is on record only if none of them was a
report on the attempt. What is on record was sent as one of them, and a
report that is accepted after it says no more than it does. -/
theorem recordReports_maximal (operation : PreparedOperation V) (attempt : Identity)
    (messages : List V1.CompletionAttemptOutcome) :
    (recordReports operation attempt messages = none ↔
      ∀ message ∈ messages, ∀ o, ¬ Reports operation attempt message o) ∧
    ∀ r, recordReports operation attempt messages = some r →
      r.into ∈ messages ∧ Reports operation attempt r.into r ∧
      ∀ message ∈ messages, ∀ o, Reports operation attempt message o →
        validateAttemptOutcome operation attempt (some r) o = .ok () → SameEvidence r o := by
  refine ⟨recordReports_none, fun r hr => ?_⟩
  obtain ⟨hm, hreports⟩ := recordReports_some hr
  refine ⟨hm, hreports, fun message' hm' o ho hacc => ?_⟩
  rw [recordReports_eq] at hr
  obtain ⟨hrr, hro, hle⟩ := validateAttemptOutcome_some.mp hacc
  have hmem := Set.mem_image_of_mem AttemptOutcome.evidence (mem_reports.mpr ⟨message', hm', ho⟩)
  have hback := (followsRecord_ordered.maximal hr).2 hmem hle
  exact sameEvidence_of_accepted hacc (validateAttemptOutcome_some.mpr ⟨hro, hrr, hback⟩)

/-! ## Reports of one run -/

theorem Restates.evidence_le (h : Restates a b) (hr : Reported operation attempt a) : a.evidence ≤ b.evidence :=
  (validateAttemptOutcome_some.mp (Restates.accepted ⟨rfl, rfl, rfl, .refl _⟩ h (validateAttemptOutcome_refl hr))).2.2

/-- The reports of a run can be compared. -/
theorem ReportRun.comparable {os : List AttemptOutcome} (h : ReportRun operation attempt os) (ha : a ∈ os)
    (hb : b ∈ os) : a.evidence ≤ b.evidence ∨ b.evidence ≤ a.evidence := by
  have : Trans (fun a b => validateAttemptOutcome operation attempt (some a) b = .ok ())
      (fun a b => validateAttemptOutcome operation attempt (some a) b = .ok ())
      (fun a b => validateAttemptOutcome operation attempt (some a) b = .ok ()) :=
    ⟨validateAttemptOutcome_trans⟩
  have hpair := List.pairwise_iff_getElem.mp h.next.pairwise
  obtain ⟨i, hi, rfl⟩ := List.getElem_of_mem ha
  obtain ⟨j, hj, rfl⟩ := List.getElem_of_mem hb
  rcases Nat.lt_trichotomy i j with hij | rfl | hij
  · exact .inl (validateAttemptOutcome_some.mp (hpair i j hi hj hij)).2.2
  · exact .inl (le_refl _)
  · exact .inr (validateAttemptOutcome_some.mp (hpair j i hj hi hij)).2.2

/-- The messages carry nothing but reports of the run, their effects in any
order; and what is no report at all. -/
def Carry (operation : PreparedOperation V) (attempt : Identity) (os : List AttemptOutcome)
    (messages : List V1.CompletionAttemptOutcome) : Prop :=
  ∀ message ∈ messages, ∀ o, Reports operation attempt message o → ∃ said ∈ os, Restates said o

theorem ReportRun.chain {os : List AttemptOutcome} (h : ReportRun operation attempt os)
    (hm : Carry operation attempt os messages) :
    IsChain (· ≤ ·)
      (AttemptOutcome.evidence '' taken (Reported operation attempt) (decoded operation attempt messages)) := by
  intro v hv v' hv' _
  obtain ⟨o, ho, rfl⟩ := hv
  obtain ⟨o', ho', rfl⟩ := hv'
  obtain ⟨message, hmem, hr⟩ := mem_reports.mp ho
  obtain ⟨message', hmem', hr'⟩ := mem_reports.mp ho'
  obtain ⟨x, hx, hxo⟩ := hm message hmem o hr
  obtain ⟨x', hx', hxo'⟩ := hm message' hmem' o' hr'
  have hback := hxo.symm.evidence_le hr.reported
  have hback' := hxo'.symm.evidence_le hr'.reported
  have hto := hxo.evidence_le (h.reported x hx)
  have hto' := hxo'.evidence_le (h.reported x' hx')
  rcases h.comparable hx hx' with hle | hle
  · exact .inl (hback.trans (hle.trans hto'))
  · exact .inr (hback'.trans (hle.trans hto))

/-- Every report that arrived is accepted before the one on record. -/
theorem ReportRun.accepted_before {os : List AttemptOutcome} (h : ReportRun operation attempt os)
    (hm : Carry operation attempt os messages) (hr : recordReports operation attempt messages = some r)
    {message : V1.CompletionAttemptOutcome} (hmem : message ∈ messages) (ho : Reports operation attempt message o) :
    validateAttemptOutcome operation attempt (some o) r = .ok () := by
  rw [recordReports_eq] at hr
  have hbound := (followsRecord_ordered.greatest (h.chain hm) hr).2
  have hrep := (mem_taken.mp (followsRecord_ordered.holds_mem hr)).2
  exact validateAttemptOutcome_some.mpr
    ⟨ho.reported, hrep, hbound (Set.mem_image_of_mem _ (mem_reports.mpr ⟨message, hmem, ho⟩))⟩

/-- **The record is what the furthest report says.** Of messages that carry
reports of one run, in any order, with losses and repetitions, the record
keeps what each report establishes; no barrier is required on it exactly
when a terminal report arrived; and hosts that received the same messages
have the same evidence on record, in whatever order they came. -/
theorem ReportRun.recorded {os : List AttemptOutcome} (h : ReportRun operation attempt os)
    (hm : Carry operation attempt os messages) :
    (∀ message ∈ messages, ∀ o, Reports operation attempt message o →
      ∃ r, recordReports operation attempt messages = some r ∧ Keeps o r) ∧
    (∀ r, recordReports operation attempt messages = some r → (r.requiresBarrier = false ↔
      ∃ message ∈ messages, ∃ o, Reports operation attempt message o ∧ o.lifecycle.kind = .terminal)) ∧
    ∀ messages', (∀ message, message ∈ messages' ↔ message ∈ messages) →
      Option.Rel SameEvidence (recordReports operation attempt messages)
        (recordReports operation attempt messages') := by
  refine ⟨fun message hmem o ho => ?_, fun r hr => ?_, fun messages' hsame => ?_⟩
  · cases hr : recordReports operation attempt messages with
    | none => exact absurd ho (recordReports_none.mp hr message hmem o)
    | some r => exact ⟨r, rfl, keeps_of_accepted (h.accepted_before hm hr hmem ho)⟩
  · obtain ⟨hmem, hrep⟩ := recordReports_some hr
    refine ⟨fun hb => ⟨_, hmem, r, hrep, hrep.reported.requiresBarrier_iff.mp hb⟩, fun hb => ?_⟩
    obtain ⟨message, hmem, o, ho, ht⟩ := hb
    exact (keeps_of_accepted (h.accepted_before hm hr hmem ho)).barrier (ho.reported.requiresBarrier_iff.mpr ht)
  · have hm' : Carry operation attempt os messages' := fun message hmem => hm message ((hsame message).mp hmem)
    have hnone : recordReports operation attempt messages = none ↔
        recordReports operation attempt messages' = none := by
      rw [recordReports_none, recordReports_none]
      exact forall_congr' fun message => by rw [hsame]
    cases hr : recordReports operation attempt messages with
    | none =>
      rw [hnone.mp hr]
      exact .none
    | some r =>
      cases hr' : recordReports operation attempt messages' with
      | none =>
        rw [hnone.mpr hr'] at hr
        cases hr
      | some r' =>
        obtain ⟨hmem, hrep⟩ := recordReports_some hr
        obtain ⟨hmem', hrep'⟩ := recordReports_some hr'
        exact .some (sameEvidence_of_accepted (h.accepted_before hm' hr' ((hsame _).mpr hmem) hrep)
          (h.accepted_before hm hr ((hsame _).mp hmem') hrep'))

/-- The messages a run is sent as carry nothing else. -/
theorem carry_into (hmax : operation.effects.length ≤ maximumEffects) {os : List AttemptOutcome}
    (h : ∀ message ∈ messages, ∃ o ∈ os, o.into = message) : Carry operation attempt os messages := by
  intro message hmem o hr
  obtain ⟨said, hsaid, rfl⟩ := h message hmem
  obtain ⟨_, rfl⟩ := (decodeOutcome_into hmax said o).mp hr.1
  exact ⟨said, hsaid, rfl, rfl, rfl, .refl _⟩

/-- The end of a request, which overtakes the report that it may still
execute, stays on record. -/
theorem sampleRun_recorded :
    let pending := sampleOutcome .mayStillExecute .unknown
    let ended := sampleOutcome (.terminal .sample .sample) .applied
    ∃ r, recordReports sampleOperation .sample [ended.into, pending.into] = some r ∧ Keeps ended r := by
  intro pending ended
  have h : ReportRun sampleOperation .sample [pending, ended] :=
    ⟨fun o ho => by cases ho; rfl, .cons_cons rfl (.singleton _)⟩
  have hm : Carry sampleOperation .sample [pending, ended] [ended.into, pending.into] :=
    carry_into (by decide) (by simp)
  have hd : decodeOutcome sampleOperation .sample ended.into = .ok ended :=
    (decodeOutcome_into (by decide) ended).ok rfl
  exact (h.recorded hm).1 _ (by simp) ended ⟨hd, by decide⟩

end ProviderSdk
