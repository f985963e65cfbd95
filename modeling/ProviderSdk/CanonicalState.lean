/-
What a decoded state remembers of its read result (`completion_wire.rs`).

Decoding was seen to forget the order of what has none (`CanonicalRead`).
Here it is seen to forget nothing else but the spelling of JSON: a state is
decoded from one read result and those that restate it, and from no other.
-/
import ProviderSdk.CanonicalPrepared

namespace ProviderSdk

open Checks Codec

/-! ## The same read result -/

namespace V1

variable (V : Type) [SerdeJson V]

/-- The same observation, but for the order of what has none and the spelling
of its native value. -/
structure CompletionObservation.Restates (w w' : CompletionObservation) : Prop where
  origin : w.origin = w'.origin
  account : w.account = w'.account
  subject : w.subject = w'.subject
  behaviorRevision : w.behaviorRevision = w'.behaviorRevision
  remoteRevision : w.remoteRevision = w'.remoteRevision
  acquired : w.acquiredAtMilliseconds = w'.acquiredAtMilliseconds
  domain : Option.Rel CompletionDomain.Reorders w.domain w'.domain
  quality : w.quality = w'.quality
  presence : Option.Rel CompletionPresence.Reorders w.presence w'.presence
  nativeValue : SameJson V w.nativeValueJson w'.nativeValueJson
  field : w.field = w'.field

structure CompletionFieldObservation.Restates (w w' : CompletionFieldObservation) : Prop where
  scope : w.scope = w'.scope
  behaviorRevision : w.behaviorRevision = w'.behaviorRevision
  remoteRevision : w.remoteRevision = w'.remoteRevision
  acquired : w.acquiredAtMilliseconds = w'.acquiredAtMilliseconds
  quality : w.quality = w'.quality
  value : Option.Rel (CompletionBeforeValue.Means V) w.value w'.value

structure CompletionReadResult.Restates (r r' : CompletionReadResult) : Prop where
  subjects : List.Forall₂ CompletionSubject.Reorders r.subjects r'.subjects
  observations : List.Forall₂ (CompletionObservation.Restates V) r.observations r'.observations
  access : r.access = r'.access
  references : List.Forall₂ CompletionDomainReferences.Reorders r.references r'.references
  fieldObservations : List.Forall₂ (CompletionFieldObservation.Restates V) r.fieldObservations r'.fieldObservations

end V1

/-! ## Subjects and references -/

theorem Subject.tryFrom_determines : Determines Subject.tryFrom V1.CompletionSubject.Reorders where
  rel {w w' s} h h' := by
    simp only [tryFrom, bind_ok, required_ok, fromModel_ok, Name.new_ok, pure_ok] at h h'
    obtain ⟨wi, hwi, i, hi, classifications, hc, role, hrole, rfl⟩ := h
    obtain ⟨wi', hwi', _, hi', _, hc', _, hrole', he⟩ := h'
    obtain ⟨rfl, rfl, rfl, hlabel⟩ := Subject.mk.inj he
    have hw : w' = { w with classifications := w'.classifications } := by
      cases w
      cases w'
      have hidentity := Identity.tryFrom_restores.determines.rel hi hi'
      simp_all
    rw [hw]
    exact .classifications (decodeNames_determines.rel hc hc')

theorem UnitReference.tryFrom_restores : Restores UnitReference.tryFrom UnitReference.into where
  of_ok {w b} h := by
    simp only [tryFrom, bind_ok, required_ok, pure_ok] at h
    obtain ⟨wi, hwi, i, hi, rfl⟩ := h
    rw [into, Identity.tryFrom_restores.of_ok hi, ← hwi]

theorem DomainReferences.tryFrom_determines :
    Determines DomainReferences.tryFrom V1.CompletionDomainReferences.Reorders where
  rel {w w' r} h h' := by
    simp only [tryFrom, bind_ok, reject_ok, required_ok, fromModel_ok, new_ok] at h h'
    obtain ⟨_, _, ws, hws, s, hs, wd, hwd, d, hd, units, hunits, _, _, _, _, rfl, rfl, hsort⟩ := h
    obtain ⟨_, _, ws', hws', s', hs', wd', hwd', d', hd', units', hunits', _, _, _, _, hs₀, hd₀, hsort'⟩ := h'
    subst hs₀ hd₀
    have hw : w' = { w with domain := w'.domain, units := w'.units } := by
      cases w
      cases w'
      have hsubject := Identity.tryFrom_restores.determines.rel hs hs'
      simp_all
    have hp : units.Perm units' := by
      have hleft := sortByUnit_perm units
      rw [← hsort, hsort'] at hleft
      exact hleft.symm.trans (sortByUnit_perm units')
    have hrestores := restores_list UnitReference.tryFrom_restores
    rw [hw]
    refine .parts ?_ ?_
    · exact Domain.tryFrom_determines.part ⟨wd, hwd, hd⟩ ⟨wd', hwd', hd'⟩
    · rw [← hrestores.of_ok hunits, ← hrestores.of_ok hunits']
      exact hp.map _

/-! ## Observations and access -/

theorem decodeQuality_restores {field : String} : Restores (decodeQuality · field) encodeQuality where
  of_ok {w q} h := by
    unfold decodeQuality at h
    split at h <;> cases h <;> rename_i hq <;> exact V1.CompletionReadQuality.tryFrom_eq_some.mp hq

theorem decodePresence_determines : Determines decodePresence V1.CompletionPresence.Reorders where
  rel {w w' p} h h' := by
    cases w <;> cases w' <;> simp only [decodePresence, bind_ok, pure_ok] at h h'
    case present.present progress progress' =>
      obtain ⟨p, hp, rfl⟩ := h
      obtain ⟨_, hp', he⟩ := h'
      cases he
      exact .present (Progress.tryFrom_determines.rel hp hp')
    all_goals grind [V1.CompletionPresence.Reorders]

theorem decodeAccess_restores {behavior : Behavior} : Restores (decodeAccess behavior) ResourceAccess.into where
  of_ok {w a} h := by
    simp only [decodeAccess, bind_ok, required_ok, fromModel_ok, Name.new_ok, pure_ok] at h
    obtain ⟨ws, hws, scope, hs, group, hg, wc, hwc, canonical, hc, _, _, rfl⟩ := h
    rw [ResourceAccess.into, EffectScope.tryFrom_restores.of_ok hs, EffectGroup.tryFrom_restores.of_ok hc, hg, ← hws,
      ← hwc]

variable {V : Type} [SerdeJson V]

theorem Observation.tryFrom_restated :
    Respects (Observation.tryFrom (V := V)) (V1.CompletionObservation.Restates V) where
  ok {w w' o} h hd := by
    rw [tryFrom_ok] at hd ⊢
    obtain ⟨hs, hv⟩ := hd
    refine ⟨⟨h.origin ▸ hs.origin, h.account ▸ hs.account, h.subject ▸ hs.subject, h.field ▸ hs.field,
      h.behaviorRevision ▸ hs.behaviorRevision, h.remoteRevision ▸ hs.remoteRevision,
      h.acquired ▸ hs.acquiredAtMilliseconds, Domain.tryFrom_respects.part h.domain hs.domain,
      h.quality ▸ hs.quality, decodePresence_respects.part h.presence hs.presence,
      decodeJson_respects.ok h.nativeValue hs.nativeValue⟩, hv⟩

theorem Observation.tryFrom_determines :
    Determines (Observation.tryFrom (V := V)) (V1.CompletionObservation.Restates V) where
  rel {w w' o} h h' := by
    have hs := (tryFrom_ok.mp h).1
    have hs' := (tryFrom_ok.mp h').1
    have hfield : w.field = w'.field := (Name.new_ok.mp hs.field).symm.trans (Name.new_ok.mp hs'.field)
    exact ⟨Identity.tryFrom_restores.part hs.origin hs'.origin, Identity.tryFrom_restores.part hs.account hs'.account,
      Identity.tryFrom_restores.part hs.subject hs'.subject, hs.behaviorRevision.trans hs'.behaviorRevision.symm,
      hs.remoteRevision.trans hs'.remoteRevision.symm,
      hs.acquiredAtMilliseconds.trans hs'.acquiredAtMilliseconds.symm,
      Domain.tryFrom_determines.part hs.domain hs'.domain,
      decodeQuality_restores.determines.rel hs.quality hs'.quality,
      decodePresence_determines.part hs.presence hs'.presence,
      decodeJson_determines.rel hs.nativeValue hs'.nativeValue, hfield⟩

theorem FieldObservation.tryFrom_ok {w : V1.CompletionFieldObservation} {o : FieldObservation V} :
    FieldObservation.tryFrom w = .ok o ↔
      (∃ scope, w.scope = some scope ∧ EffectScope.tryFrom scope = .ok o.scope) ∧
        w.behaviorRevision = o.behaviorRevision ∧ w.remoteRevision = o.remoteRevision ∧
        w.acquiredAtMilliseconds = o.acquiredAtMilliseconds ∧
        decodeQuality w.quality "field_observation.quality" = .ok o.quality ∧
        (∃ value, w.value = some value ∧ decodeBefore value = .ok o.value) ∧ o.Valid := by
  simp only [tryFrom, bind_ok, required_ok, fromOperation_ok, validate_ok, exists_const, pure_ok]
  refine ⟨fun h => ?_, fun h => ?_⟩
  · obtain ⟨ws, hws, s, hs, q, hq, wb, hwb, b, hb, hv, rfl⟩ := h
    exact ⟨⟨ws, hws, hs⟩, rfl, rfl, rfl, hq, ⟨wb, hwb, hb⟩, hv⟩
  · obtain ⟨⟨ws, hws, hs⟩, hrev, hremote, hacquired, hq, ⟨wb, hwb, hb⟩, hv⟩ := h
    rw [hrev, hremote, hacquired]
    exact ⟨ws, hws, _, hs, _, hq, wb, hwb, _, hb, hv, rfl⟩

theorem FieldObservation.tryFrom_restated :
    Respects (FieldObservation.tryFrom (V := V)) (V1.CompletionFieldObservation.Restates V) where
  ok {w w' o} h hd := by
    rw [tryFrom_ok] at hd ⊢
    obtain ⟨hs, hrev, hremote, hacquired, hq, hb, hv⟩ := hd
    exact ⟨h.scope ▸ hs, h.behaviorRevision ▸ hrev, h.remoteRevision ▸ hremote, h.acquired ▸ hacquired,
      h.quality ▸ hq, decodeBefore_respects.part h.value hb, hv⟩

theorem FieldObservation.tryFrom_determines :
    Determines (FieldObservation.tryFrom (V := V)) (V1.CompletionFieldObservation.Restates V) where
  rel {w w' o} h h' := by
    rw [tryFrom_ok] at h h'
    obtain ⟨hs, hrev, hremote, hacquired, hq, hb, _⟩ := h
    obtain ⟨hs', hrev', hremote', hacquired', hq', hb', _⟩ := h'
    exact ⟨EffectScope.tryFrom_restores.part hs hs', hrev.trans hrev'.symm, hremote.trans hremote'.symm,
      hacquired.trans hacquired'.symm, decodeQuality_restores.determines.rel hq hq',
      decodeBefore_determines.part hb hb'⟩

/-! ## States -/

/-- **What a decoded state remembers.** A state is decoded from exactly the
read results that restate its own: the same but for the order of
classifications, items, bindings and the units of unordered domains, and the
spelling of JSON values. -/
theorem decodeState_iff {account : Identity} {requested : List Identity} {behavior : Behavior}
    {r : V1.CompletionReadResult} {s : State V} (h : decodeState account requested behavior r = .ok s)
    (r' : V1.CompletionReadResult) :
    decodeState account requested behavior r' = .ok s ↔ r.Restates V r' := by
  obtain ⟨hs, hv⟩ := decodeState_ok.mp h
  rw [decodeState_ok, and_iff_left hv]
  refine ⟨fun hs' => ?_, fun hr => ?_⟩
  · have haccess := restores_list (@decodeAccess_restores behavior)
    exact ⟨(determines_list Subject.tryFrom_determines).rel hs.subjects hs'.subjects,
      (determines_list Observation.tryFrom_determines).rel hs.observations hs'.observations,
      haccess.determines.rel hs.access hs'.access,
      (determines_list DomainReferences.tryFrom_determines).rel hs.references hs'.references,
      (determines_list FieldObservation.tryFrom_determines).rel hs.fieldObservations hs'.fieldObservations⟩
  · exact ⟨(respects_list Subject.tryFrom_respects).ok hr.subjects hs.subjects,
      (respects_list Observation.tryFrom_restated).ok hr.observations hs.observations, hr.access ▸ hs.access,
      (respects_list DomainReferences.tryFrom_respects).ok hr.references hs.references,
      (respects_list FieldObservation.tryFrom_restated).ok hr.fieldObservations hs.fieldObservations⟩

/-- A read result listed in another order is decoded as the same state; one
with another classification is not. -/
theorem listedResult_restated :
    let a := Identity.sample.into
    let b := otherIdentity.into
    ∃ s : State SampleJson,
      decodeState .sample [] sampleBehavior (listedResult ["sample:b", "sample:a"] [a, b]) = .ok s ∧
      decodeState .sample [] sampleBehavior (listedResult ["sample:a", "sample:b"] [b, a]) = .ok s ∧
      decodeState .sample [] sampleBehavior (listedResult ["sample:a"] [b, a]) ≠ .ok s := by
  intro a b
  obtain ⟨s, hd⟩ : ∃ s : State SampleJson, decodeState .sample [] sampleBehavior
      (listedResult ["sample:b", "sample:a"] [a, b]) = .ok s := isOk_iff.mp (by decide +kernel)
  refine ⟨s, hd, (decodeState_iff hd _).mpr ⟨?_, ?_, rfl, .nil, .nil⟩, fun h => ?_⟩
  · exact .cons (.classifications (.swap _ _ _)) .nil
  · refine .cons ⟨rfl, rfl, rfl, rfl, rfl, rfl, .some ?_, rfl, .some ?_, ⟨by decide, rfl⟩, rfl⟩ .nil
    · exact .units rfl (.swap _ _ _)
    · exact .present (.some (.items (.swap _ _ _)))
  · have hr := (decodeState_iff hd _).mp h
    cases hr.subjects with
    | cons hsubject _ =>
      have hlen : ∀ w w' : V1.CompletionSubject, w.Reorders w' →
          w.classifications.length = w'.classifications.length := by
        intro w w' hw
        obtain ⟨hp⟩ := hw
        exact hp.length_eq
      exact absurd (hlen _ _ hsubject) (by decide)

end ProviderSdk
