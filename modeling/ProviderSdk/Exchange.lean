/-
Executing and reconciling an attempt between a host and a provider
(`completion.proto`, `completion_operation.rs`, `completion_wire.rs`).

A call carries the prepared operation, the attempt and the report the host
has on record; the provider decodes them and answers with a report that
passes the check on transitions. Calls and answers are lost, repeated and
overtake each other, and answers that were never given arrive as well. The
two checks still agree, and the record only ever grows (`Exchange.run_safe`).
-/
import ProviderSdk.AttemptRecord
import ProviderSdk.CanonicalPrepared

namespace ProviderSdk

open Checks Codec Register

/-- What `ExecuteCompletionRequest` and `ReconcileCompletionRequest` give of
an attempt; the first has no previous outcome. -/
structure V1.ReconcileCompletionRequest where
  operation : Option V1.PreparedCompletionOperation
  attempt : Option V1.CompletionIdentity
  previous : Option V1.CompletionAttemptOutcome

variable {V : Type} [SerdeJson V]

/-- The host's call for an attempt, by what it has on record. -/
def callFor (operation : PreparedOperation V) (attempt : Identity) (record : Option AttemptOutcome) :
    V1.ReconcileCompletionRequest where
  operation := some operation.into
  attempt := some attempt.into
  previous := record.map AttemptOutcome.into

/-- What a provider of a behavior makes of a call. -/
structure Understands (behavior : Behavior) (request : V1.ReconcileCompletionRequest) (op : PreparedOperation V)
    (att : Identity) (prev : Option AttemptOutcome) : Prop where
  operation : ∃ w, request.operation = some w ∧ decodePrepared behavior w = .ok op
  attempt : ∃ w, request.attempt = some w ∧ Identity.tryFrom w = .ok att
  previous : Option.Rel (fun w p => decodeOutcome op att w = .ok p) request.previous prev

/-- The reports a provider may answer a call with: those that pass as the
next after the previous one in the call. -/
def MayAnswer (V : Type) [SerdeJson V] (behavior : Behavior) (request : V1.ReconcileCompletionRequest)
    (o : AttemptOutcome) : Prop :=
  ∃ (op : PreparedOperation V) (att : Identity) (prev : Option AttemptOutcome),
    Understands behavior request op att prev ∧ validateAttemptOutcome op att prev o = .ok ()

/-- All calls made and all messages answered, any of which may arrive at any
time and any number of times, and the host's record. -/
structure Exchange where
  calls : List V1.ReconcileCompletionRequest
  answers : List V1.CompletionAttemptOutcome
  record : Option AttemptOutcome

def Exchange.start : Exchange := ⟨[], [], none⟩

inductive Exchange.Step (behavior : Behavior) (operation : PreparedOperation V) (attempt : Identity) :
    Exchange → Exchange → Prop
  | call (s : Exchange) :
    Step behavior operation attempt s { s with calls := callFor operation attempt s.record :: s.calls }
  | answer {s : Exchange} {request : V1.ReconcileCompletionRequest} {o : AttemptOutcome} (hr : request ∈ s.calls)
      (ha : MayAnswer V behavior request o) :
    Step behavior operation attempt s { s with answers := o.into :: s.answers }
  | stray (s : Exchange) (message : V1.CompletionAttemptOutcome) :
    Step behavior operation attempt s { s with answers := message :: s.answers }
  | receive {s : Exchange} {message : V1.CompletionAttemptOutcome} (hm : message ∈ s.answers) :
    Step behavior operation attempt s { s with record := recordReport operation attempt s.record message }

/-- The runs of an exchange. -/
abbrev Exchange.Run (behavior : Behavior) (operation : PreparedOperation V) (attempt : Identity) :
    Exchange → Exchange → Prop :=
  Relation.ReflTransGen (Exchange.Step behavior operation attempt)

variable {behavior : Behavior} {operation : PreparedOperation V} {attempt : Identity} {s s' : Exchange}
  {record : Option AttemptOutcome} {o r : AttemptOutcome}

/-! ## Calls -/

omit [SerdeJson V] in
/-- A report on record is what its encoding is decoded as, and nothing else
is. -/
theorem previous_iff (hmax : operation.effects.length ≤ maximumEffects)
    (hrec : ∀ r, record = some r → Reported operation attempt r) {prev : Option AttemptOutcome} :
    Option.Rel (fun w p => decodeOutcome operation attempt w = .ok p) (record.map AttemptOutcome.into) prev ↔
      prev = record := by
  cases record with
  | none => cases prev <;> simp
  | some r =>
    have hr : Returns (decodeOutcome operation attempt) AttemptOutcome.into _ r := decodeOutcome_into hmax r
    cases prev with
    | none => simp
    | some p =>
      rw [Option.map_some, Option.rel_some_some, hr p, Option.some.injEq]
      exact ⟨fun h => h.2.symm, fun h => ⟨(hrec r rfl).valid, h.symm⟩⟩

/-- A call is understood as it was meant. -/
theorem understands_callFor (h : decodePrepared behavior operation.into = .ok operation)
    (hrec : ∀ r, record = some r → Reported operation attempt r) {op : PreparedOperation V} {att : Identity}
    {prev : Option AttemptOutcome} : Understands behavior (callFor operation attempt record) op att prev ↔
      op = operation ∧ att = attempt ∧ prev = record := by
  have hmax := (decodePrepared_ok.mp h).2.effects.2
  refine ⟨fun hu => ?_, fun hu => ?_⟩
  · obtain ⟨⟨w, hw, hop⟩, ⟨w', hw', hatt⟩, hprev⟩ := hu
    cases hw
    cases hw'
    rw [h] at hop
    rw [Identity.tryFrom_into] at hatt
    cases hop
    cases hatt
    exact ⟨rfl, rfl, (previous_iff hmax hrec).mp hprev⟩
  · obtain ⟨rfl, rfl, rfl⟩ := hu
    exact ⟨⟨_, rfl, h⟩, ⟨_, rfl, Identity.tryFrom_into att⟩, (previous_iff hmax hrec).mpr rfl⟩

/-- The provider's check is the host's. -/
theorem mayAnswer_callFor (h : decodePrepared behavior operation.into = .ok operation)
    (hrec : ∀ r, record = some r → Reported operation attempt r) :
    MayAnswer V behavior (callFor operation attempt record) o ↔
      validateAttemptOutcome operation attempt record o = .ok () := by
  refine ⟨fun ha => ?_, fun ha => ⟨operation, attempt, record, (understands_callFor h hrec).mpr ⟨rfl, rfl, rfl⟩, ha⟩⟩
  obtain ⟨op, att, prev, hu, hv⟩ := ha
  obtain ⟨rfl, rfl, rfl⟩ := (understands_callFor h hrec).mp hu
  exact hv

/-- Each JSON value of an effect fits the wire. -/
def PreparedOperation.FitsWire (op : PreparedOperation V) : Prop :=
  ∀ e ∈ op.effects, ∀ v ∈ e.change.json, (SerdeJson.toString v).length ≤ maximumJsonBytes

instance (op : PreparedOperation V) : Decidable op.FitsWire :=
  inferInstanceAs (Decidable (∀ e ∈ op.effects, ∀ v ∈ e.change.json, _ ≤ _))

/-- A valid operation that a call about is answered fits the wire. -/
theorem MayAnswer.fitsWire {behavior' : Behavior} (h : MayAnswer V behavior' (callFor operation attempt record) o)
    (hv : operation.Valid behavior)
    (hread : ∀ v ∈ operation.json, SerdeJson.fromSlice (SerdeJson.toString v) = some v) : operation.FitsWire := by
  obtain ⟨op, _, _, hunderstands, _⟩ := h
  obtain ⟨w, hw, hop⟩ := hunderstands.operation
  cases hw
  have heffects := returns_list fun e he => decodeEffect_into (hv.changes e he) fun v hm =>
    decodeJson_returns (hread v (List.mem_cons_of_mem _ (List.mem_flatMap.mpr ⟨e, he, hm⟩)))
  exact ((heffects _).mp (decodePrepared_ok.mp hop).1.effects).1

/-! ## The record -/

/-- What is on record is a report that arrived. -/
structure Exchange.Sound (operation : PreparedOperation V) (attempt : Identity) (s : Exchange) : Prop where
  reported : ∀ r, s.record = some r → Reported operation attempt r
  answered : ∀ r, s.record = some r → r.into ∈ s.answers

/-- A record gives way only to a report that passes after it. -/
def Grows (operation : PreparedOperation V) (attempt : Identity) (record record' : Option AttemptOutcome) : Prop :=
  ∀ r, record = some r → ∃ r', record' = some r' ∧ validateAttemptOutcome operation attempt (some r) r' = .ok ()

omit [SerdeJson V] in
theorem Grows.trans {record' record'' : Option AttemptOutcome} (h : Grows operation attempt record record')
    (h' : Grows operation attempt record' record'') : Grows operation attempt record record'' := by
  intro r hr
  obtain ⟨r', hr', hle⟩ := h r hr
  obtain ⟨r'', hr'', hle'⟩ := h' r' hr'
  exact ⟨r'', hr'', validateAttemptOutcome_trans hle hle'⟩

omit [SerdeJson V] in
/-- What a message does to the record: it is recorded if it passes, and is
as if it had not come if not. -/
theorem recordReport_cases (record : Option AttemptOutcome) (message : V1.CompletionAttemptOutcome) :
    (∃ o, decodeOutcome operation attempt message = .ok o ∧
      validateAttemptOutcome operation attempt record o = .ok () ∧
        recordReport operation attempt record message = some o) ∨
    recordReport operation attempt record message = record ∧
      ∀ o, decodeOutcome operation attempt message = .ok o →
        validateAttemptOutcome operation attempt record o ≠ .ok () := by
  rw [recordReport]
  cases hd : decodeOutcome operation attempt message with
  | error e => exact .inr ⟨rfl, fun o ho => by cases ho⟩
  | ok o =>
    by_cases hf : followsRecord operation attempt record o = true
    · exact .inl ⟨o, rfl, followsRecord_iff.mp hf, if_pos hf⟩
    · refine .inr ⟨if_neg hf, fun o' ho => ?_⟩
      cases ho
      exact followsRecord_iff.not.mp hf

omit [SerdeJson V] in
/-- A report is recorded, once it was sent, exactly where it passes. -/
theorem recordReport_into (hmax : operation.effects.length ≤ maximumEffects)
    (hrec : ∀ r, record = some r → Reported operation attempt r) :
    recordReport operation attempt record o.into = some o ↔
      validateAttemptOutcome operation attempt record o = .ok () := by
  refine ⟨fun h => ?_, fun h => ?_⟩
  · rcases recordReport_cases record o.into with hcase | hcase
    · obtain ⟨o', _, hv, ho'⟩ := hcase
      rw [h] at ho'
      cases ho'
      exact hv
    · rw [hcase.1] at h
      rw [h]
      exact validateAttemptOutcome_refl (hrec o h)
  · have hvalid : o.validateFor operation attempt = .ok () := by
      cases record with
      | none => exact (validateAttemptOutcome_none.mp h).valid
      | some r => exact (validateAttemptOutcome_some.mp h).2.1.valid
    rw [recordReport, (decodeOutcome_into hmax o).ok hvalid]
    exact if_pos (followsRecord_iff.mpr h)

namespace Exchange

/-- What one step does: the record stands, or a message that arrived is
recorded after it. -/
theorem Step.safe (hs : s.Sound operation attempt) (h : Step behavior operation attempt s s') :
    s'.Sound operation attempt ∧ Grows operation attempt s.record s'.record := by
  have hrefl : Grows operation attempt s.record s.record :=
    fun r hr => ⟨r, hr, validateAttemptOutcome_refl (hs.reported r hr)⟩
  cases h with
  | call => exact ⟨⟨hs.reported, hs.answered⟩, hrefl⟩
  | answer hr ha => exact ⟨⟨hs.reported, fun r hr => List.mem_cons_of_mem _ (hs.answered r hr)⟩, hrefl⟩
  | stray => exact ⟨⟨hs.reported, fun r hr => List.mem_cons_of_mem _ (hs.answered r hr)⟩, hrefl⟩
  | @receive message hm =>
    rcases recordReport_cases s.record message with h | h
    · obtain ⟨o, hd, hv, hrec⟩ := h
      obtain rfl := decodeOutcome_restores.of_ok hd
      have ho : Reported operation attempt o := by
        cases hr : s.record with
        | none => exact validateAttemptOutcome_none.mp (hr ▸ hv)
        | some r => exact (validateAttemptOutcome_some.mp (hr ▸ hv)).2.1
      refine ⟨⟨fun r hr => ?_, fun r hr => ?_⟩, fun r hr => ⟨o, hrec, hr ▸ hv⟩⟩
      · cases hrec.symm.trans hr
        exact ho
      · cases hrec.symm.trans hr
        exact hm
    · have hsame := h.1
      refine ⟨⟨fun r hr => hs.reported r (hsame ▸ hr), fun r hr => hs.answered r (hsame ▸ hr)⟩, ?_⟩
      show Grows operation attempt s.record (recordReport operation attempt s.record message)
      rw [hsame]
      exact hrefl

theorem Run.safe (hs : s.Sound operation attempt) (h : Run behavior operation attempt s s') :
    s'.Sound operation attempt ∧ Grows operation attempt s.record s'.record := by
  induction h with
  | refl => exact ⟨hs, fun r hr => ⟨r, hr, validateAttemptOutcome_refl (hs.reported r hr)⟩⟩
  | tail _ hstep ih =>
    obtain ⟨hs', hgrows⟩ := ih
    obtain ⟨hs'', hgrows'⟩ := hstep.safe hs'
    exact ⟨hs'', hgrows.trans hgrows'⟩

omit [SerdeJson V] in
theorem start_sound : start.Sound operation attempt where
  reported _ hr := by cases hr
  answered _ hr := by cases hr

/-- Each call is about the operation and the attempt, and carries a report on
them if any. -/
def Calls (operation : PreparedOperation V) (attempt : Identity) (s : Exchange) : Prop :=
  ∀ call ∈ s.calls, ∃ record, call = callFor operation attempt record ∧
    ∀ r, record = some r → Reported operation attempt r

theorem Step.calls (hs : s.Sound operation attempt) (hc : s.Calls operation attempt)
    (h : Step behavior operation attempt s s') : s'.Calls operation attempt := by
  cases h with
  | call =>
    intro call hcall
    rcases List.mem_cons.mp hcall with rfl | hcall
    · exact ⟨s.record, rfl, hs.reported⟩
    · exact hc call hcall
  | answer | stray | receive => exact hc

theorem Run.calls (h : Run behavior operation attempt start s) : s.Calls operation attempt := by
  induction h with
  | refl => exact fun call hcall => by cases hcall
  | tail hrun hstep ih => exact hstep.calls (Run.safe start_sound hrun).1 ih

/-- A report that passes can be brought on record: by a call, the answer to
it, and its receipt. -/
theorem Run.records (h : decodePrepared behavior operation.into = .ok operation)
    (hs : Run behavior operation attempt start s)
    (hv : validateAttemptOutcome operation attempt s.record o = .ok ()) :
    ∃ s', Run behavior operation attempt s s' ∧ s'.record = some o := by
  obtain ⟨hsound, _⟩ := hs.safe start_sound
  have hmax := (decodePrepared_ok.mp h).2.effects.2
  have ha := (mayAnswer_callFor h hsound.reported).mpr hv
  have hrun : Run behavior operation attempt s _ := .single (.call s)
  have hrun' := hrun.tail (.answer (List.mem_cons_self) ha)
  exact ⟨_, hrun'.tail (.receive List.mem_cons_self), (recordReport_into hmax hsound.reported).mpr hv⟩

/-- **The record of an exchange only grows.** Whatever is lost, repeated,
overtaken or made up on the way: what is on record arrived as a message, and
what it establishes stands on every later record. Where the values of the
operation fit the wire, a provider may answer a call with just those reports
that the host records if the answer finds the record as the call left it, so
every report that passes can be brought on record. Where one does not, no
call is ever answered. -/
theorem run_safe (hc : CompactJson V) (hv : operation.validate behavior = .ok ())
    (hread : ∀ v ∈ operation.json, SerdeJson.fromSlice (SerdeJson.toString v) = some v)
    (hs : Run behavior operation attempt start s) :
    (∀ r, s.record = some r → r.into ∈ s.answers ∧ r.lifecycle ≠ .notDispatched ∧
      ∀ s', Run behavior operation attempt s s' → ∃ r', s'.record = some r' ∧ Keeps r r') ∧
    (operation.FitsWire → ∀ o, (MayAnswer V behavior (callFor operation attempt s.record) o ↔
        recordReport operation attempt s.record o.into = some o) ∧
      (validateAttemptOutcome operation attempt s.record o = .ok () →
        ∃ s', Run behavior operation attempt s s' ∧ s'.record = some o)) ∧
    (¬ operation.FitsWire → ∀ call ∈ s.calls, ∀ o, ¬ MayAnswer V behavior call o) := by
  have hv := PreparedOperation.validate_ok.mp hv
  obtain ⟨hsound, _⟩ := hs.safe start_sound
  refine ⟨fun r hr => ⟨hsound.answered r hr, (hsound.reported r hr).dispatched, fun s' hrun => ?_⟩,
    fun hfits o => ?_, fun hfits call hcall o ho => hfits ?_⟩
  · obtain ⟨r', hr', hgrown⟩ := (hrun.safe hsound).2 r hr
    exact ⟨r', hr', keeps_of_accepted hgrown⟩
  · have hdecode := (hv.returns hc hread).ok hfits
    refine ⟨?_, hs.records hdecode⟩
    rw [mayAnswer_callFor hdecode hsound.reported, recordReport_into hv.effects.2 hsound.reported]
  · obtain ⟨record, rfl, _⟩ := hs.calls call hcall
    exact ho.fitsWire hv hread

theorem appendOperation_sent :
    decodePrepared appendBehavior (appendOperation (.text 3)).into = .ok (appendOperation (.text 3)) := by
  have hvalid : (appendOperation (.text 3)).validate appendBehavior = .ok () := rfl
  exact ((PreparedOperation.validate_ok.mp hvalid).returns SampleJson.compact
    (appendOperation_read (by decide))).ok (by decide)

/-- The append of a short value is brought on record as applied, and no call
about one of 65537 bytes is answered. -/
theorem appendOperation_exchange :
    (∃ s, Run appendBehavior (appendOperation (.text 3)) .sample start s ∧
      s.record = some (sampleOutcome (.terminal .sample .sample) .applied)) ∧
    ∃ s, Run appendBehavior (appendOperation (.text 65535)) .sample start s ∧ s.calls ≠ [] ∧
      ∀ call ∈ s.calls, ∀ o, ¬ MayAnswer SampleJson appendBehavior call o := by
  have hshort : (appendOperation (.text 3)).FitsWire := by decide
  have hlong : ¬ (appendOperation (.text 65535)).FitsWire := by
    intro h
    have hle := h _ (List.mem_singleton_self _) _ (List.mem_singleton_self _)
    have hlen : (SampleJson.text 65535).print.length = 65537 := SampleJson.length_print_text 65535
    have hmax : (SampleJson.text 65535).print.length ≤ 65536 := hle
    omega
  obtain ⟨_, hrecords, _⟩ := @run_safe _ _ appendBehavior _ .sample _ SampleJson.compact rfl
    (@appendOperation_read (.text 3) (by decide)) .refl
  have hrun : Run appendBehavior (appendOperation (.text 65535)) .sample start _ := .single (.call start)
  exact ⟨(hrecords hshort _).2 rfl, _, hrun, List.cons_ne_nil _ _,
    (run_safe SampleJson.compact rfl (appendOperation_read (by decide)) hrun).2.2 hlong⟩

end Exchange

end ProviderSdk
