/-
Canonical decoding of read results (`completion_wire.rs`).

A read result lists classifications, completed items, the units of unordered
domains and the bindings of references in some order. What it decodes to
does not depend on that order, and is decoded again from what it is encoded
to.
-/
import ProviderSdk.StateWire

namespace ProviderSdk

open Checks Codec

/-! ## Reordered messages -/

/-- The same subject, its classifications in another order. -/
inductive V1.CompletionSubject.Reorders (w : V1.CompletionSubject) : V1.CompletionSubject → Prop where
  | classifications {classifications : List String} (h : w.classifications.Perm classifications) :
    Reorders w { w with classifications }

/-- The same domain; if it is unordered, its units in another order. -/
inductive V1.CompletionDomain.Reorders (w : V1.CompletionDomain) : V1.CompletionDomain → Prop where
  | same : Reorders w w
  | units {units : List V1.CompletionIdentity}
    (ho : V1.CompletionOrdering.tryFrom w.ordering = some .unordered) (h : w.units.Perm units) :
    Reorders w { w with units }

/-- The same progress; if it is a set, its items in another order. -/
inductive V1.CompletionProgressValue.Reorders :
    V1.CompletionProgressValue → V1.CompletionProgressValue → Prop where
  | same (value : V1.CompletionProgressValue) : Reorders value value
  | items {completed completed' : List V1.CompletionIdentity} (h : completed.Perm completed') :
    Reorders (.items ⟨completed⟩) (.items ⟨completed'⟩)

inductive V1.CompletionPresence.Reorders : V1.CompletionPresence → V1.CompletionPresence → Prop where
  | same (presence : V1.CompletionPresence) : Reorders presence presence
  | present {value value' : Option V1.CompletionProgressValue}
    (h : Option.Rel V1.CompletionProgressValue.Reorders value value') : Reorders (.present ⟨value⟩) (.present ⟨value'⟩)

inductive V1.CompletionObservation.Reorders (w : V1.CompletionObservation) : V1.CompletionObservation → Prop where
  | parts {domain : Option V1.CompletionDomain} {presence : Option V1.CompletionPresence}
    (hd : Option.Rel V1.CompletionDomain.Reorders w.domain domain)
    (hp : Option.Rel V1.CompletionPresence.Reorders w.presence presence) : Reorders w { w with domain, presence }

/-- The same references, the units of their domain and their bindings in
another order. -/
inductive V1.CompletionDomainReferences.Reorders (w : V1.CompletionDomainReferences) :
    V1.CompletionDomainReferences → Prop where
  | parts {domain : Option V1.CompletionDomain} {units : List V1.CompletionUnitReference}
    (hd : Option.Rel V1.CompletionDomain.Reorders w.domain domain) (hu : w.units.Perm units) :
    Reorders w { w with domain, units }

/-- The same read result, but for the order of what has none. -/
inductive V1.CompletionReadResult.Reorders (r : V1.CompletionReadResult) : V1.CompletionReadResult → Prop where
  | parts {subjects : List V1.CompletionSubject} {observations : List V1.CompletionObservation}
    {references : List V1.CompletionDomainReferences}
    (hs : List.Forall₂ V1.CompletionSubject.Reorders r.subjects subjects)
    (ho : List.Forall₂ V1.CompletionObservation.Reorders r.observations observations)
    (hr : List.Forall₂ V1.CompletionDomainReferences.Reorders r.references references) :
    Reorders r { r with subjects, observations, references }

/-! ## Decoders that forget the order -/

theorem Subject.tryFrom_respects : Respects Subject.tryFrom V1.CompletionSubject.Reorders where
  ok {w w' s} h hd := by
    obtain ⟨hp⟩ := h
    simp only [tryFrom, bind_ok, required_ok, fromModel_ok, pure_ok] at hd ⊢
    obtain ⟨sent, hsent, identity, hi, classifications, hc, rest⟩ := hd
    exact ⟨sent, hsent, identity, hi, classifications, decodeSet_respects.ok hp hc, rest⟩

theorem Domain.tryFrom_respects : Respects Domain.tryFrom V1.CompletionDomain.Reorders where
  ok {w w' d} h hd := by
    cases h with
    | same => exact hd
    | units ho hp =>
      have hordering : decodeOrdering w.ordering = .ok .unordered := by rw [decodeOrdering, ho]; rfl
      simp only [tryFrom, bind_ok, reject_ok, gt_iff_lt, Nat.not_lt, required_ok, fromModel_ok, exists_const,
        hordering, Except.ok.injEq, exists_eq_left'] at hd ⊢
      obtain ⟨hlen, sent, hsent, identity, hi, unit, hunit, units, hunits, hnew⟩ := hd
      obtain ⟨units', hunits', hperm⟩ := mapM_perm hp hunits
      exact ⟨hp.length_eq ▸ hlen, sent, hsent, identity, hi, unit, hunit, units', hunits',
        Domain.new_perm hperm hnew⟩

theorem Progress.tryFrom_respects {value value' : Option V1.CompletionProgressValue} {p : Progress}
    (h : Option.Rel V1.CompletionProgressValue.Reorders value value') (hd : Progress.tryFrom ⟨value⟩ = .ok p) :
    Progress.tryFrom ⟨value'⟩ = .ok p := by
  cases h with
  | none => exact hd
  | some h =>
    cases h with
    | same => exact hd
    | items hp =>
      simp only [tryFrom, bind_ok, required_ok, Option.some.injEq, exists_eq_left', pure_ok] at hd ⊢
      obtain ⟨completed, hc, he⟩ := hd
      exact ⟨completed, decodeSet_respects.ok hp hc, he⟩

theorem decodePresence_respects : Respects decodePresence V1.CompletionPresence.Reorders where
  ok {w w' p} h hd := by
    cases h with
    | same => exact hd
    | present h =>
      simp only [decodePresence, bind_ok, pure_ok] at hd ⊢
      obtain ⟨progress, hp, he⟩ := hd
      exact ⟨progress, Progress.tryFrom_respects h hp, he⟩

theorem DomainReferences.tryFrom_respects :
    Respects DomainReferences.tryFrom V1.CompletionDomainReferences.Reorders where
  ok {w w' r} h hd := by
    obtain ⟨hdomain, hp⟩ := h
    simp only [tryFrom, bind_ok, reject_ok, gt_iff_lt, Nat.not_lt, required_ok, fromModel_ok, exists_const] at hd ⊢
    obtain ⟨hlen, i, hi, subject, hs, sent, hsent, d, hd, units, hunits, hnew⟩ := hd
    obtain ⟨sent', hsent', hrel⟩ := rel_some hdomain hsent
    obtain ⟨units', hunits', hperm⟩ := mapM_perm hp hunits
    exact ⟨hp.length_eq ▸ hlen, i, hi, subject, hs, sent', hsent', d, Domain.tryFrom_respects.ok hrel hd, units', hunits',
      DomainReferences.new_perm hperm hnew⟩

section

variable {V : Type} [SerdeJson V]

theorem Observation.tryFrom_respects :
    Respects (Observation.tryFrom (V := V)) V1.CompletionObservation.Reorders where
  ok {w w' o} h hd := by
    obtain ⟨hdomain, hpresence⟩ := h
    obtain ⟨hsent, hv⟩ := Observation.tryFrom_ok.mp hd
    obtain ⟨domain, hdm, hd⟩ := hsent.domain
    obtain ⟨presence, hpm, hp⟩ := hsent.presence
    obtain ⟨domain', hdm', hrel⟩ := rel_some hdomain hdm
    obtain ⟨presence', hpm', hrelp⟩ := rel_some hpresence hpm
    refine Observation.tryFrom_ok.mpr ⟨{ hsent with domain := ?_, presence := ?_ }, hv⟩
    · exact ⟨domain', hdm', Domain.tryFrom_respects.ok hrel hd⟩
    · exact ⟨presence', hpm', decodePresence_respects.ok hrelp hp⟩

/-- Reordered read results decode to one state. -/
theorem decodeState_respects {account : Identity} {requested : List Identity} {behavior : Behavior} :
    Respects (decodeState (V := V) account requested behavior) V1.CompletionReadResult.Reorders where
  ok {r r' s} h hd := by
    obtain ⟨hs, ho, hr⟩ := h
    obtain ⟨hsent, hv⟩ := decodeState_ok.mp hd
    exact decodeState_ok.mpr ⟨{ hsent with
      subjects := (respects_list Subject.tryFrom_respects).ok hs hsent.subjects
      observations := (respects_list Observation.tryFrom_respects).ok ho hsent.observations
      references := (respects_list DomainReferences.tryFrom_respects).ok hr hsent.references }, hv⟩

/-! ## What decoding yields -/

/-- A value `from_slice` has produced. -/
def Parsed (v : V) : Prop := ∃ bytes, SerdeJson.fromSlice bytes = some v

omit [SerdeJson V] in
theorem Subject.tryFrom_yields :
    Yields Subject.tryFrom fun s => s.classifications.len ≤ maximumCollectionItems where
  of_ok {w s} hd := by
    simp only [tryFrom, bind_ok, pure_ok] at hd
    obtain ⟨_, _, _, _, classifications, hc, _, _, rfl⟩ := hd
    exact decodeSet_yields.of_ok hc

theorem decodeJson_yields : Yields decodeJson (Parsed (V := V)) where
  of_ok {bytes _} hd := ⟨bytes, (decodeJson_ok.mp hd).2⟩

theorem Observation.tryFrom_yields : Yields Observation.tryFrom fun o : Observation V => Parsed o.nativeValue where
  of_ok hd := decodeJson_yields.of_ok (Observation.tryFrom_ok.mp hd).1.nativeValue

theorem decodeBefore_yields : Yields decodeBefore fun b : BeforeValue V => ∀ v ∈ b.json, Parsed v where
  of_ok {w b} hd := by
    simp only [decodeBefore, bind_ok] at hd
    obtain ⟨sent, _, hd⟩ := hd
    cases sent with
    | knownJson bytes =>
      simp only [bind_ok, pure_ok] at hd
      obtain ⟨value, hv, rfl⟩ := hd
      intro v hm
      rw [List.mem_singleton.mp hm]
      exact decodeJson_yields.of_ok hv
    | missing =>
      cases hd
      exact fun _ hm => absurd hm List.not_mem_nil
    | unknown =>
      cases hd
      exact fun _ hm => absurd hm List.not_mem_nil

theorem FieldObservation.tryFrom_yields :
    Yields FieldObservation.tryFrom fun o : FieldObservation V => ∀ v ∈ o.value.json, Parsed v where
  of_ok {w o} hd := by
    simp only [tryFrom, bind_ok, pure_ok] at hd
    obtain ⟨_, _, _, _, _, _, _, _, value, hv, _, _, rfl⟩ := hd
    exact decodeBefore_yields.of_ok hv

/-- A decoded state is valid, and holds collections and values that travel. -/
theorem decodeState_yields {account : Identity} {requested : List Identity} {behavior : Behavior} :
    Yields (decodeState account requested behavior) fun s : State V => s.Valid account requested behavior ∧
      (∀ subject ∈ s.subjects, subject.classifications.len ≤ maximumCollectionItems) ∧ ∀ v ∈ s.json, Parsed v where
  of_ok {r s} hd := by
    obtain ⟨hsent, hv⟩ := decodeState_ok.mp hd
    refine ⟨hv, (yields_list Subject.tryFrom_yields).of_ok hsent.subjects, fun v hm => ?_⟩
    rcases State.mem_json.mp hm with ⟨o, hmem, rfl⟩ | ⟨o, hmem, hm⟩
    · exact (yields_list Observation.tryFrom_yields).of_ok hsent.observations o hmem
    · exact (yields_list FieldObservation.tryFrom_yields).of_ok hsent.fieldObservations o hmem v hm

/-! ## Canonical decoding -/

/-- **Decoding is canonical.** What a read result decodes to, any reordering
of it decodes to, and so does what it is encoded to again. -/
theorem decodeState_canonical (hprint : ∀ v : V, SerdeJson.toString v = jsonText (.value v))
    (hread : ∀ v : V, Parsed v → SerdeJson.fromSlice (SerdeJson.toString v) = some v)
    {account : Identity} {requested : List Identity} {behavior : Behavior} {r : V1.CompletionReadResult}
    {s : State V} (hd : decodeState account requested behavior r = .ok s) :
    decodeState account requested behavior s.into = .ok s ∧
      ∀ r', r.Reorders r' → decodeState account requested behavior r' = .ok s := by
  refine ⟨?_, fun r' h => decodeState_respects.ok h hd⟩
  obtain ⟨hv, hs, hparsed⟩ := decodeState_yields.of_ok hd
  have hreturns : ∀ v ∈ s.json,
      Returns decodeJson encodeJson ((SerdeJson.toString v).length ≤ maximumJsonBytes) v :=
    fun v hm => decodeJson_returns (hread v (hparsed v hm))
  refine (decodeState_into hreturns).ok ⟨hv, hs, fun v hm => ?_⟩
  rw [hprint]
  exact hv.json hm

end

/-- A subject with two classifications and a set of two units, listed in the
orders given. -/
def listedResult (classifications : List String) (units : List V1.CompletionIdentity) : V1.CompletionReadResult where
  subjects := [⟨some Identity.sample.into, classifications, "sample:name", "label"⟩]
  observations := [{
    origin := some Identity.sample.into, account := some Identity.sample.into, subject := some Identity.sample.into
    behaviorRevision := "r1", remoteRevision := none, acquiredAtMilliseconds := 0
    domain := some ⟨some Identity.sample.into, "r1", "sample:name", 2, units, false⟩, quality := 1
    presence := some (.present ⟨some (.items ⟨units⟩)⟩), nativeValueJson := SampleJson.print (.text 0)
    field := "sample:name" }]
  access := []
  references := []
  fieldObservations := []

/-- Both listings decode to one state. -/
theorem listedResult_canonical :
    let a := Identity.sample.into
    let b := otherIdentity.into
    ∃ s : State SampleJson,
      decodeState .sample [] sampleBehavior (listedResult ["sample:b", "sample:a"] [a, b]) = .ok s ∧
      decodeState .sample [] sampleBehavior (listedResult ["sample:a", "sample:b"] [b, a]) = .ok s := by
  intro a b
  obtain ⟨s, hd⟩ : ∃ s : State SampleJson, decodeState .sample [] sampleBehavior
      (listedResult ["sample:b", "sample:a"] [a, b]) = .ok s := isOk_iff.mp (by decide +kernel)
  have hread : ∀ v : SampleJson, Parsed v → SerdeJson.fromSlice (SerdeJson.toString v) = some v := by
    intro v ⟨bytes, hb⟩
    exact SampleJson.recursionLimit.shallow v (SampleJson.depth_of_parse hb)
  refine ⟨s, hd, (decodeState_canonical SampleJson.recursionLimit.toString hread hd).2 _ ?_⟩
  refine .parts (.cons (.classifications (.swap _ _ _)) .nil) (.cons (.parts ?_ ?_) .nil) .nil
  · exact .some (.units rfl (.swap _ _ _))
  · exact .some (.present (.some (.items (.swap _ _ _))))

end ProviderSdk
