/-
Completion states on the wire (`completion_wire.rs`).

`decode_state` converts the parts of a read result and then runs
`State::validate`. What it makes of a state that was sent is said by
`decodeState_into`; the two places where it is stricter than the validator
are the size of a classification set and the depth of a JSON value.
-/
import ProviderSdk.CompletionState
import ProviderSdk.CompletionBatch
import ProviderSdk.CompletionWire

namespace ProviderSdk

open Checks Codec

variable {V : Type} [SerdeJson V]

/-! ## Observations -/

/-- The `match` on a presence in `Observation::try_from`. -/
def decodePresence (value : V1.CompletionPresence) : Except WireError Presence :=
  match value with
  | .present progress => do
    let progress ← Progress.tryFrom progress
    pure (.present progress)
  | .missing => pure .missing
  | .cleared => pure .cleared
  | .meaningfulAbsence => pure .meaningfulAbsence

/-- The `match` on a presence in `From<Observation>`. -/
def encodePresence (value : Presence) : V1.CompletionPresence :=
  match value with
  | .present progress => .present progress.into
  | .missing => .missing
  | .cleared => .cleared
  | .meaningfulAbsence => .meaningfulAbsence

def Observation.tryFrom (value : V1.CompletionObservation) : Except WireError (Observation V) := do
  let quality ← decodeQuality value.quality "observation.quality"
  let origin ← Identity.tryFrom (← required value.origin "observation.origin")
  let account ← Identity.tryFrom (← required value.account "observation.account")
  let subject ← Identity.tryFrom (← required value.subject "observation.subject")
  let field ← fromModel (Name.new value.field)
  let domain ← Domain.tryFrom (← required value.domain "observation.domain")
  let presence ← decodePresence (← required value.presence "observation.presence")
  let nativeValue ← decodeJson value.nativeValueJson
  let decoded : Observation V := {
    origin, account, subject, field, behaviorRevision := value.behaviorRevision
    remoteRevision := value.remoteRevision, acquiredAtMilliseconds := value.acquiredAtMilliseconds
    domain, quality, presence, nativeValue }
  fromModel decoded.validate
  pure decoded

def Observation.into (self : Observation V) : V1.CompletionObservation where
  origin := some self.origin.into
  account := some self.account.into
  subject := some self.subject.into
  field := self.field.value
  behaviorRevision := self.behaviorRevision
  remoteRevision := self.remoteRevision
  acquiredAtMilliseconds := self.acquiredAtMilliseconds
  domain := some self.domain.into
  quality := encodeQuality self.quality
  presence := some (encodePresence self.presence)
  nativeValueJson := encodeJson self.nativeValue

/-- What a message says of the parts of an observation. -/
structure Observation.SentAs (w : V1.CompletionObservation) (o : Observation V) : Prop where
  origin : ∃ sent, w.origin = some sent ∧ Identity.tryFrom sent = .ok o.origin
  account : ∃ sent, w.account = some sent ∧ Identity.tryFrom sent = .ok o.account
  subject : ∃ sent, w.subject = some sent ∧ Identity.tryFrom sent = .ok o.subject
  field : Name.new w.field = .ok o.field
  behaviorRevision : w.behaviorRevision = o.behaviorRevision
  remoteRevision : w.remoteRevision = o.remoteRevision
  acquiredAtMilliseconds : w.acquiredAtMilliseconds = o.acquiredAtMilliseconds
  domain : ∃ sent, w.domain = some sent ∧ Domain.tryFrom sent = .ok o.domain
  quality : decodeQuality w.quality "observation.quality" = .ok o.quality
  presence : ∃ sent, w.presence = some sent ∧ decodePresence sent = .ok o.presence
  nativeValue : decodeJson w.nativeValueJson = .ok o.nativeValue

/-- Decoding gives the observation a message says, if it is valid. -/
theorem Observation.tryFrom_ok {w : V1.CompletionObservation} {o : Observation V} :
    Observation.tryFrom w = .ok o ↔ o.SentAs w ∧ o.Valid := by
  simp only [tryFrom, bind_ok, required_ok, fromModel_ok, validate_ok, pure_ok, exists_const]
  refine ⟨fun h => ?_, fun h => ?_⟩
  · obtain ⟨_, hq, io, hio, _, ho, ia, hia, _, ha, is, his, _, hs, _, hf, id, hid, _, hd, ip, hip, _, hp, _, hn, hv,
      he⟩ := h
    subst he
    exact ⟨⟨⟨io, hio, ho⟩, ⟨ia, hia, ha⟩, ⟨is, his, hs⟩, hf, rfl, rfl, rfl, ⟨id, hid, hd⟩, hq, ⟨ip, hip, hp⟩, hn⟩, hv⟩
  · obtain ⟨h, hv⟩ := h
    obtain ⟨io, hio, ho⟩ := h.origin
    obtain ⟨ia, hia, ha⟩ := h.account
    obtain ⟨is, his, hs⟩ := h.subject
    obtain ⟨id, hid, hd⟩ := h.domain
    obtain ⟨ip, hip, hp⟩ := h.presence
    rw [h.behaviorRevision, h.remoteRevision, h.acquiredAtMilliseconds]
    exact ⟨_, h.quality, io, hio, _, ho, ia, hia, _, ha, is, his, _, hs, _, h.field, id, hid, _, hd, ip, hip, _, hp,
      _, h.nativeValue, hv, rfl⟩

theorem decodePresence_encode (p : Presence) : Returns decodePresence encodePresence
    (∀ progress, p = .present progress → progress.listed ≤ maximumCollectionItems) p := by
  intro p'
  cases p with
  | present progress =>
    simp only [decodePresence, encodePresence, bind_ok, progress.tryFrom_returns _, pure_ok, Presence.present.injEq,
      forall_eq', and_assoc, exists_and_left, exists_eq_left']
  | missing => simp [decodePresence, encodePresence]
  | cleared => simp [decodePresence, encodePresence]
  | meaningfulAbsence => simp [decodePresence, encodePresence]

/-- An observation is read back exactly where it is valid and its native
value is. -/
theorem Observation.tryFrom_into {o : Observation V} {P : Prop}
    (h : Returns decodeJson encodeJson P o.nativeValue) :
    Returns Observation.tryFrom Observation.into (o.Valid ∧ P) o := by
  intro o'
  simp only [tryFrom, into, bind_ok, decodeQuality_encode, Except.ok.injEq, exists_eq_left', required_ok,
    Option.some.injEq, Identity.tryFrom_into, fromModel_new_value, Domain.tryFrom_into, decodePresence_encode _ _,
    h _, fromModel_ok, validate_ok, pure_ok, and_assoc, exists_and_left, exists_const]
  refine ⟨fun h => ?_, fun h => ?_⟩
  · obtain ⟨_, hp, hv, he⟩ := h
    exact ⟨hv, hp, he⟩
  · obtain ⟨hv, hp, he⟩ := h
    exact ⟨fun progress hpresent => (hv.progress progress hpresent).listed, hp, hv, he⟩

/-! ## Field observations and access -/

def FieldObservation.tryFrom (value : V1.CompletionFieldObservation) : Except WireError (FieldObservation V) := do
  let scope ← EffectScope.tryFrom (← required value.scope "field_observation.scope")
  let quality ← decodeQuality value.quality "field_observation.quality"
  let before ← decodeBefore (← required value.value "field_observation.value")
  let decoded : FieldObservation V := {
    scope, behaviorRevision := value.behaviorRevision, remoteRevision := value.remoteRevision
    acquiredAtMilliseconds := value.acquiredAtMilliseconds, quality, value := before }
  fromOperation decoded.validate
  pure decoded

def FieldObservation.into (self : FieldObservation V) : V1.CompletionFieldObservation where
  scope := some self.scope.into
  behaviorRevision := self.behaviorRevision
  remoteRevision := self.remoteRevision
  acquiredAtMilliseconds := self.acquiredAtMilliseconds
  quality := encodeQuality self.quality
  value := some self.value.into

def decodeAccess (behavior : Behavior) (value : V1.CompletionResourceAccess) : Except WireError ResourceAccess := do
  let scope ← EffectScope.tryFrom (← required value.scope "access.scope")
  let group ← fromModel (Name.new value.group)
  let canonicalGroup ← EffectGroup.tryFrom (← required value.canonicalGroup "access.canonical_group")
  let decoded : ResourceAccess := {
    scope, group, canonicalGroup, revision := value.revision, readable := value.readable, writable := value.writable }
  fromOperation (decoded.validate behavior)
  pure decoded

def ResourceAccess.into (self : ResourceAccess) : V1.CompletionResourceAccess where
  scope := some self.scope.into
  group := self.group.value
  canonicalGroup := some self.canonicalGroup.into
  revision := self.revision
  readable := self.readable
  writable := self.writable

theorem FieldObservation.tryFrom_into {o : FieldObservation V} {P : V → Prop}
    (h : ∀ v ∈ o.value.json, Returns decodeJson encodeJson (P v) v) :
    Returns FieldObservation.tryFrom FieldObservation.into (o.Valid ∧ ∀ v ∈ o.value.json, P v) o := by
  intro o'
  simp only [tryFrom, into, bind_ok, decodeQuality_encode, Except.ok.injEq, exists_eq_left', required_ok,
    Option.some.injEq, EffectScope.tryFrom_into, decodeBefore_into h _, fromOperation_ok, validate_ok, pure_ok,
    and_assoc, exists_and_left, exists_const]
  exact and_left_comm

omit [SerdeJson V] in
theorem decodeAccess_into {behavior : Behavior} (a : ResourceAccess) :
    Returns (decodeAccess behavior) ResourceAccess.into (behavior.Valid ∧ a.Valid behavior) a := by
  intro a'
  simp only [decodeAccess, ResourceAccess.into, bind_ok, Except.ok.injEq, exists_eq_left', required_ok,
    Option.some.injEq, EffectScope.tryFrom_into, EffectGroup.tryFrom_into, fromModel_new_value, fromOperation_ok,
    ResourceAccess.validate_ok, pure_ok, exists_const, and_assoc]

/-! ## States -/

def decodeState (account : Identity) (requested : List Identity) (behavior : Behavior)
    (value : V1.CompletionReadResult) : Except WireError (State V) := do
  reject (value.subjects.length > maximumStateItems ∨ value.observations.length > maximumStateItems ∨
    value.access.length > maximumStateItems ∨ value.references.length > maximumStateItems ∨
    value.fieldObservations.length > maximumStateItems) .limitExceeded
  let subjects ← value.subjects.mapM Subject.tryFrom
  let observations ← value.observations.mapM Observation.tryFrom
  let access ← value.access.mapM (decodeAccess behavior)
  let references ← value.references.mapM DomainReferences.tryFrom
  let fieldObservations ← value.fieldObservations.mapM FieldObservation.tryFrom
  let decoded : State V := { subjects, observations, access, references, fieldObservations }
  (decoded.validate account requested behavior).mapError .invalidState
  pure decoded

def State.into (self : State V) : V1.CompletionReadResult where
  subjects := self.subjects.map Subject.into
  observations := self.observations.map Observation.into
  access := self.access.map ResourceAccess.into
  references := self.references.map DomainReferences.into
  fieldObservations := self.fieldObservations.map FieldObservation.into

omit [SerdeJson V] in
/-- The JSON values a state carries as evidence. -/
def State.json (s : State V) : List V :=
  s.observations.map (·.nativeValue) ++ s.fieldObservations.flatMap (·.value.json)

omit [SerdeJson V] in
theorem State.mem_json {s : State V} {v : V} : v ∈ s.json ↔
    (∃ o ∈ s.observations, o.nativeValue = v) ∨ ∃ o ∈ s.fieldObservations, v ∈ o.value.json := by
  rw [State.json, List.mem_append, List.mem_map, List.mem_flatMap]

/-- A valid state holds no long JSON value. -/
theorem State.Valid.json {account : Identity} {requested : List Identity} {behavior : Behavior} {s : State V}
    (h : s.Valid account requested behavior) {v : V} (hv : v ∈ s.json) :
    (jsonText (.value v)).length ≤ maximumJsonBytes := by
  rcases State.mem_json.mp hv with ⟨o, ho, rfl⟩ | ⟨o, ho, hv⟩
  · exact (h.coherent.observations o ho).valid.nativeValue
  · have hvalue := (h.coherent.fields o ho).valid.value
    cases hb : o.value with
    | known value =>
      rw [hb] at hv
      rw [List.mem_singleton.mp hv]
      exact hvalue value hb
    | missing => rw [hb] at hv; cases hv
    | unknown => rw [hb] at hv; cases hv

/-- What a read result says of the parts of a state. -/
structure State.SentAs (behavior : Behavior) (r : V1.CompletionReadResult) (s : State V) : Prop where
  subjects : r.subjects.mapM Subject.tryFrom = .ok s.subjects
  observations : r.observations.mapM Observation.tryFrom = .ok s.observations
  access : r.access.mapM (decodeAccess behavior) = .ok s.access
  references : r.references.mapM DomainReferences.tryFrom = .ok s.references
  fieldObservations : r.fieldObservations.mapM FieldObservation.tryFrom = .ok s.fieldObservations

/-- Decoding gives the state a read result says, if it is valid. -/
theorem decodeState_ok {account : Identity} {requested : List Identity} {behavior : Behavior}
    {r : V1.CompletionReadResult} {s : State V} : decodeState account requested behavior r = .ok s ↔
      s.SentAs behavior r ∧ s.Valid account requested behavior := by
  simp only [decodeState, bind_ok, reject_ok, not_or, gt_iff_lt, Nat.not_lt, exists_const, mapError_ok,
    State.validate_ok, pure_ok]
  refine ⟨fun h => ?_, fun h => ?_⟩
  · obtain ⟨_, _, hs, _, ho, _, ha, _, hr, _, hf, hv, he⟩ := h
    subst he
    exact ⟨⟨hs, ho, ha, hr, hf⟩, hv⟩
  · obtain ⟨h, hv⟩ := h
    have hl := hv.limits
    have hlen := fun {W M : Type} {decode : W → Except WireError M} {l : List W} {l' : List M}
      (hm : l.mapM decode = .ok l') => (mapM_ok.mp hm).length_eq
    refine ⟨?_, _, h.subjects, _, h.observations, _, h.access, _, h.references, _, h.fieldObservations, hv, rfl⟩
    rw [hlen h.subjects, hlen h.observations, hlen h.access, hlen h.references, hlen h.fieldObservations]
    exact ⟨hl.subjects, hl.observations, hl.access, hl.references, hl.fieldObservations⟩

/-- What a state that was sent is decoded as. -/
theorem decodeState_into {account : Identity} {requested : List Identity} {behavior : Behavior} {s : State V}
    {P : V → Prop} (h : ∀ v ∈ s.json, Returns decodeJson encodeJson (P v) v) :
    Returns (decodeState account requested behavior) State.into (s.Valid account requested behavior ∧
      (∀ subject ∈ s.subjects, subject.classifications.len ≤ maximumCollectionItems) ∧ ∀ v ∈ s.json, P v) s := by
  have hsubjects := returns_list fun subject (_ : subject ∈ s.subjects) => subject.tryFrom_into
  have hobservations := returns_list fun o (ho : o ∈ s.observations) =>
    Observation.tryFrom_into (h _ (State.mem_json.mpr (.inl ⟨o, ho, rfl⟩)))
  have haccess := returns_list fun a (_ : a ∈ s.access) =>
    (decodeAccess_into a : Returns (decodeAccess behavior) ResourceAccess.into (behavior.Valid ∧ a.Valid behavior) a)
  have hreferences := returns_list fun r (_ : r ∈ s.references) =>
    (fun r' => by simp : Returns DomainReferences.tryFrom DomainReferences.into True r)
  have hfields := returns_list fun o (ho : o ∈ s.fieldObservations) =>
    FieldObservation.tryFrom_into fun v hv => h v (State.mem_json.mpr (.inr ⟨o, ho, hv⟩))
  intro d
  rw [decodeState_ok]
  refine ⟨fun hd => ?_, fun hd => ?_⟩
  · obtain ⟨hsent, hv⟩ := hd
    obtain ⟨hs, hse⟩ := (hsubjects _).mp hsent.subjects
    obtain ⟨ho, hoe⟩ := (hobservations _).mp hsent.observations
    obtain ⟨_, hae⟩ := (haccess _).mp hsent.access
    obtain ⟨_, hre⟩ := (hreferences _).mp hsent.references
    obtain ⟨hf, hfe⟩ := (hfields _).mp hsent.fieldObservations
    obtain rfl : s = d := by
      cases s
      cases d
      simp_all
    refine ⟨⟨hv, hs, fun v hm => ?_⟩, rfl⟩
    rcases State.mem_json.mp hm with ⟨o, hmem, rfl⟩ | ⟨o, hmem, hm⟩
    · exact (ho o hmem).2
    · exact (hf o hmem).2 v hm
  · obtain ⟨⟨hv, hs, hj⟩, he⟩ := hd
    subst he
    have hc := hv.coherent
    refine ⟨⟨hsubjects.ok hs, hobservations.ok fun o ho => ⟨?_, ?_⟩, haccess.ok fun a ha => ⟨hv.declared, ?_⟩,
      hreferences.ok fun _ _ => trivial, hfields.ok fun o ho => ⟨?_, fun v hm => ?_⟩⟩, hv⟩
    · exact (hc.observations o ho).valid
    · exact hj _ (State.mem_json.mpr (.inl ⟨o, ho, rfl⟩))
    · exact (hc.access a ha).valid
    · exact (hc.fields o ho).valid
    · exact hj v (State.mem_json.mpr (.inr ⟨o, ho, hm⟩))

/-! ## The two contracts -/

/-- What travels, of states that are valid: a set of classifications is no
larger than a collection may be, and `from_slice` reads every value. -/
structure State.Portable (s : State V) : Prop where
  classifications : ∀ subject ∈ s.subjects, subject.classifications.len ≤ 100000
  depth : ∀ v ∈ s.json, SerdeJson.depth v < 128

/-- A JSON value travels where it is neither long nor deep. -/
theorem RecursionLimit.returns (hj : RecursionLimit V) (v : V) : Returns decodeJson encodeJson
    ((jsonText (.value v)).length ≤ maximumJsonBytes ∧ SerdeJson.depth v < 128) v := by
  by_cases hd : SerdeJson.depth v < 128
  · refine (decodeJson_returns (hj.shallow v hd)).congr ?_
    rw [hj.toString, and_iff_left hd]
  · intro v'
    rw [decodeJson_ok, encodeJson, hj.deep v (Nat.le_of_not_lt hd)]
    simp [hd]

/-- A state that was sent is decoded as itself, where it is valid and
portable, and as nothing elsewhere. -/
theorem RecursionLimit.state_returns (hj : RecursionLimit V) {account : Identity} {requested : List Identity}
    {behavior : Behavior} (s : State V) : Returns (decodeState account requested behavior) State.into
      (s.Valid account requested behavior ∧ s.Portable) s := by
  refine (decodeState_into fun v _ => hj.returns v).congr ?_
  refine ⟨fun h => ?_, fun h => ?_⟩
  · obtain ⟨hv, hs, hjson⟩ := h
    exact ⟨hv, hs, fun v hm => (hjson v hm).2⟩
  · obtain ⟨hv, hp⟩ := h
    exact ⟨hv, hp.classifications, fun v hm => ⟨hv.json hm, hp.depth v hm⟩⟩

/-- **Where the two contracts agree.** The validator and the decoder give one
verdict on a state, and the decoder gives the state back, exactly where the
state is portable if it is valid. -/
theorem decodeState_agrees_iff (hj : RecursionLimit V) (account : Identity) (requested : List Identity)
    (behavior : Behavior) (s : State V) :
    ((s.validate account requested behavior = .ok () ↔
        ∃ d : State V, decodeState account requested behavior s.into = .ok d) ∧
      (s.validate account requested behavior = .ok () → decodeState account requested behavior s.into = .ok s)) ↔
      (s.Valid account requested behavior → s.Portable) := by
  have hreturns : Returns (decodeState account requested behavior) State.into
      (s.Valid account requested behavior ∧ s.Portable) s := hj.state_returns s
  rw [State.validate_ok]
  refine ⟨fun h hv => ?_, fun h => ⟨⟨fun hv => ?_, fun hd => ?_⟩, fun hv => ?_⟩⟩
  · exact ((hreturns s).mp (h.2 hv)).1.2
  · exact ⟨s, hreturns.ok ⟨hv, h hv⟩⟩
  · obtain ⟨d, hd⟩ := hd
    exact ((hreturns d).mp hd).1.1
  · exact hreturns.ok ⟨hv, h hv⟩

/-- One subject, observed as `null` inside a number of arrays. -/
def nestedState (depth : Nat) : State SampleJson where
  subjects := [⟨.sample, .new, .sample, "label"⟩]
  observations := [⟨.sample, .sample, .sample, .sample, "r1", none, 0, sampleDomain, .complete, .missing, .nested depth⟩]
  access := []
  references := []
  fieldObservations := []

set_option maxRecDepth 20000 in
/-- A value nested 127 levels deep travels. -/
theorem nestedState_agrees :
    decodeState .sample [] sampleBehavior (nestedState 127).into = .ok (nestedState 127) := by
  refine ((decodeState_agrees_iff SampleJson.recursionLimit _ _ _ _).mpr fun _ => ⟨?_, ?_⟩).2 rfl
  · intro subject hm
    rw [List.mem_singleton.mp hm]
    decide
  · intro v hm
    have hv : v = .nested 127 := List.mem_singleton.mp hm
    rw [hv]
    decide

set_option maxRecDepth 20000 in
/-- A value nested one level deeper is valid, and not decoded. -/
theorem nestedState_disagrees :
    (nestedState 128).validate .sample [] sampleBehavior = .ok () ∧
      decodeState (V := SampleJson) .sample [] sampleBehavior (nestedState 128).into = .error .invalidJson := by
  exact ⟨rfl, rfl⟩

end ProviderSdk
