/-
What a changed behavior does to what was made under the old one.

A host may have an older description of a library than its provider. Each
side judges what it is sent by the behavior it knows itself. So a provider
whose behavior does not accept an operation answers no call about it, however
often the host calls and whatever it has on record, and a provider whose
behavior does can answer every call about one that fits the wire
(`Exchange.run_answerable`). Of
descriptions with different revisions, no state and no operation is taken
under both (`revisions_apart`).
-/
import ProviderSdk.DiscoveryProto3
import ProviderSdk.Exchange
import ProviderSdk.StateWire

namespace ProviderSdk

open Checks

variable {V : Type} [SerdeJson V] {behavior behavior' : Behavior} {operation : PreparedOperation V}
  {attempt : Identity}

/-! ## Operations under two behaviors -/

omit [SerdeJson V] in
theorem sent_unique {W A : Type} {decode : W → Except WireError A} {sent : Option W} {a b : A}
    (h : ∃ w, sent = some w ∧ decode w = .ok a) (h' : ∃ w, sent = some w ∧ decode w = .ok b) : a = b := by
  obtain ⟨w, hw, ha⟩ := h
  obtain ⟨w', hw', hb⟩ := h'
  cases hw.symm.trans hw'
  exact Except.ok.inj (ha.symm.trans hb)

/-- A message says one operation, under whatever behavior it is judged. -/
theorem PreparedOperation.SentAs.unique {w : V1.PreparedCompletionOperation} {op op' : PreparedOperation V}
    (h : op.SentAs w) (h' : op'.SentAs w) : op = op' := by
  obtain ⟨_, hw, hmethod, hparameters⟩ := h.command
  obtain ⟨_, hw', hmethod', hparameters'⟩ := h'.command
  cases hw.symm.trans hw'
  have hidentity := sent_unique h.identity h'.identity
  have hclass := Name.eq_of_value (h.operationClass.trans h'.operationClass.symm)
  have hrevision := h.behaviorRevision.trans h'.behaviorRevision.symm
  have hprepared := h.prepared.trans h'.prepared.symm
  have hexpires := h.expires.trans h'.expires.symm
  have heffects := Except.ok.inj (h.effects.symm.trans h'.effects)
  have hprotection := sent_unique h.protection h'.protection
  have hreplay := sent_unique h.replay h'.replay
  have hreconciliation := Except.ok.inj (h.reconciliation.symm.trans h'.reconciliation)
  have hmethod := Name.eq_of_value (hmethod.trans hmethod'.symm)
  have hparameters := Except.ok.inj (hparameters.symm.trans hparameters')
  obtain ⟨_, _, _, _, _, _, _, _, _, command⟩ := op
  obtain ⟨_, _, _, _, _, _, _, _, _, command'⟩ := op'
  obtain ⟨_, _⟩ := command
  obtain ⟨_, _⟩ := command'
  simp_all

/-- Another behavior takes a message as the same operation or not at all. -/
theorem decodePrepared_under {w : V1.PreparedCompletionOperation} {op' : PreparedOperation V}
    (h : decodePrepared behavior w = .ok operation) : decodePrepared behavior' w = .ok op' ↔
      op' = operation ∧ operation.validate behavior' = .ok () := by
  obtain ⟨hsent, _⟩ := decodePrepared_ok.mp h
  rw [decodePrepared_ok, PreparedOperation.validate_ok]
  refine ⟨fun h' => ?_, fun h' => ?_⟩
  · obtain rfl := h'.1.unique hsent
    exact ⟨rfl, h'.2⟩
  · obtain ⟨rfl, hv⟩ := h'
    exact ⟨hsent, hv⟩

/-- Behaviors that accept one operation have one revision. -/
theorem PreparedOperation.Valid.revision_eq (h : operation.Valid behavior) (h' : operation.Valid behavior') :
    behavior.revision = behavior'.revision := h.revision.symm.trans h'.revision

/-! ## Calls in flight -/

/-- There is a next report after whatever is on record. -/
theorem exists_next (hv : operation.Valid behavior) {record : Option AttemptOutcome}
    (hrec : ∀ r, record = some r → Reported operation attempt r) :
    ∃ o, validateAttemptOutcome operation attempt record o = .ok () := by
  cases record with
  | some r => exact ⟨r, validateAttemptOutcome_refl (hrec r rfl)⟩
  | none =>
    refine ⟨⟨operation.identity, attempt, .mayStillExecute, operation.effects.map fun e => ⟨e.scope, .unknown⟩,
      .unknown⟩, validateAttemptOutcome_none.mpr ⟨AttemptOutcome.validateFor_ok.mpr ?_, nofun⟩⟩
    have hscopes : (operation.effects.map fun e => (⟨e.scope, .unknown⟩ : EffectOutcome)).map (·.scope) =
        operation.effects.map (·.scope) := by simp
    refine ⟨rfl, rfl, ?_, fun s => ?_, nofun⟩
    · rw [hscopes]
      exact hv.scopes
    · rw [hscopes]

/-- **Calls across a change.** A host prepared an operation that one behavior
accepts, its provider knows another. In every state their exchange reaches,
each call made can be answered if the provider's behavior accepts the
operation and its values fit the wire, and by no report at all if not, as
where the revisions differ. -/
theorem Exchange.run_answerable {s : Exchange} (hc : CompactJson V) (hv : operation.validate behavior = .ok ())
    (hread : ∀ v ∈ operation.json, SerdeJson.fromSlice (SerdeJson.toString v) = some v)
    (hs : Run behavior' operation attempt start s) :
    (∀ call ∈ s.calls, (∃ o, MayAnswer V behavior' call o) ↔
      operation.validate behavior' = .ok () ∧ operation.FitsWire) ∧
    (behavior.revision ≠ behavior'.revision → ∀ call ∈ s.calls, ∀ o, ¬ MayAnswer V behavior' call o) := by
  have hv := PreparedOperation.validate_ok.mp hv
  have hanswer : ∀ call ∈ s.calls, ∀ o, MayAnswer V behavior' call o →
      operation.validate behavior' = .ok () ∧ operation.FitsWire := by
    intro call hcall o ho
    obtain ⟨record, rfl, _⟩ := hs.calls call hcall
    have hfits := ho.fitsWire hv hread
    obtain ⟨op, att, prev, hunderstands, _⟩ := ho
    obtain ⟨w, hw, hop⟩ := hunderstands.operation
    cases hw
    exact ⟨((decodePrepared_under ((hv.returns hc hread).ok hfits)).mp hop).2, hfits⟩
  refine ⟨fun call hcall => ⟨fun ho => ?_, fun h => ?_⟩, fun hrev call hcall o ho => ?_⟩
  · obtain ⟨o, ho⟩ := ho
    exact hanswer call hcall o ho
  · obtain ⟨hv', hfits⟩ := h
    obtain ⟨record, rfl, hrec⟩ := hs.calls call hcall
    have hv' := PreparedOperation.validate_ok.mp hv'
    obtain ⟨o, ho⟩ := exists_next hv' hrec
    exact ⟨o, (mayAnswer_callFor ((hv'.returns hc hread).ok hfits) hrec).mpr ho⟩
  · have hv' := PreparedOperation.validate_ok.mp (hanswer call hcall o ho).1
    exact hrev (hv.revision_eq hv')

/-- A provider that describes itself anew. -/
def laterBehavior : Behavior := { appendBehavior with revision := "r2" }

theorem appendOperation_outdated : ∃ s : Exchange,
    Exchange.Run laterBehavior (appendOperation (.text 3)) .sample .start s ∧ s.calls ≠ [] ∧
      ∀ call ∈ s.calls, ∀ o, ¬ MayAnswer SampleJson laterBehavior call o := by
  have hvalid : (appendOperation (.text 3)).validate appendBehavior = .ok () := rfl
  have hrun : Exchange.Run laterBehavior (appendOperation (.text 3)) .sample .start _ := .single (.call .start)
  exact ⟨_, hrun, List.cons_ne_nil _ _,
    (Exchange.run_answerable SampleJson.compact hvalid (appendOperation_read (by decide)) hrun).2 (by decide)⟩

/-! ## Messages under two descriptions -/

/-- A state with a subject names the revision of the behavior it is read
under. -/
theorem decodeState_revision {account : Identity} {requested : List Identity} {r : V1.CompletionReadResult}
    {s : State V} (h : decodeState account requested behavior r = .ok s) (hne : r.subjects ≠ []) :
    (∃ o, o ∈ r.observations) ∧ ∀ o ∈ r.observations, o.behaviorRevision = behavior.revision := by
  obtain ⟨hsent, hv⟩ := decodeState_ok.mp h
  have hobservations := mapM_ok.mp hsent.observations
  refine ⟨?_, fun o ho => ?_⟩
  · obtain ⟨w, hw⟩ := List.exists_mem_of_ne_nil _ hne
    obtain ⟨subject, hsubject, _⟩ := forall₂_mem_right (mapM_ok.mp hsent.subjects).flip hw
    obtain ⟨o, ho, _⟩ := hv.coherent.observed _ (List.mem_map_of_mem hsubject)
    obtain ⟨w, hw, _⟩ := forall₂_mem_right hobservations ho
    exact ⟨w, hw⟩
  · obtain ⟨o', ho', hdecoded⟩ := forall₂_mem_right hobservations.flip ho
    exact (Observation.tryFrom_ok.mp hdecoded).1.behaviorRevision.trans (hv.coherent.observations o' ho').revision

theorem validateCompletionLibrary_revision [ProstDiscovery] {w : V1.CompletionLibrary} {account : Identity}
    (h : validateCompletionLibrary w account = .ok behavior) :
    w.behavior.map (·.revision) = some behavior.revision := by
  obtain ⟨l, hl, _, rfl⟩ := validateCompletionLibrary_ok.mp h
  obtain ⟨sent, hsent, hb⟩ := (Library.tryFrom_ok.mp hl).2.1.behavior
  rw [hsent, Option.map_some, (Behavior.tryFrom_ok.mp hb).1]

/-- **Nothing is taken under two revisions.** Of two library messages that
are accepted and name different revisions, no operation is decoded under
both, nor any state but the empty one. -/
theorem revisions_apart [ProstDiscovery] {library library' : V1.CompletionLibrary} {account account' : Identity}
    (h : validateCompletionLibrary library account = .ok behavior)
    (h' : validateCompletionLibrary library' account' = .ok behavior')
    (hrev : library.behavior.map (·.revision) ≠ library'.behavior.map (·.revision)) :
    (∀ (w : V1.PreparedCompletionOperation) (op op' : PreparedOperation V),
      decodePrepared behavior w = .ok op → decodePrepared behavior' w ≠ .ok op') ∧
    ∀ r : V1.CompletionReadResult, r.subjects ≠ [] →
      ∀ (a a' : Identity) (requested requested' : List Identity) (s s' : State V),
        decodeState a requested behavior r = .ok s → decodeState a' requested' behavior' r ≠ .ok s' := by
  rw [validateCompletionLibrary_revision h, validateCompletionLibrary_revision h', ne_eq, Option.some.injEq] at hrev
  refine ⟨fun w op op' hop hop' => ?_, fun r hne a a' requested requested' s s' hs hs' => ?_⟩
  · have hv := ((decodePrepared_under hop).mp hop').2
    exact hrev ((decodePrepared_ok.mp hop).2.revision_eq (PreparedOperation.validate_ok.mp hv))
  · obtain ⟨⟨o, ho⟩, hall⟩ := decodeState_revision hs hne
    exact hrev ((hall o ho).symm.trans ((decodeState_revision hs' hne).2 o ho))

/-- A library of no fields. -/
def describedLibrary (behavior : Behavior) : Library := ⟨.sample, behavior, []⟩

theorem describedLibrary_apart :
    decodePrepared laterBehavior (appendOperation (.text 3)).into ≠ .ok (appendOperation (.text 3)) := by
  have h : validateCompletionLibrary (describedLibrary appendBehavior).spell .sample = .ok appendBehavior := by rfl
  have h' : validateCompletionLibrary (describedLibrary laterBehavior).spell .sample = .ok laterBehavior := by rfl
  exact (revisions_apart h h' (by decide)).1 _ _ _ Exchange.appendOperation_sent

end ProviderSdk
