/-
Batches of a completion state.

A state that lists some of the subjects of another, with everything the
other says of them, is a batch of it (`State.BatchOf`). What is said of a
batch's own subjects reads the same in the batch as in the whole, so
coherence passes between them; only the limits are on the whole.
-/
import ProviderSdk.CompletionState
import ProviderSdk.SampleJson

namespace ProviderSdk

variable {V : Type}

/-- Everything a state says is of a subject it lists. -/
structure State.SelfContained (s : State V) : Prop where
  observations : ∀ o ∈ s.observations, o.subject ∈ s.identities
  access : ∀ a ∈ s.access, a.scope.subject ∈ s.identities
  references : ∀ r ∈ s.references, r.subject ∈ s.identities
  fieldObservations : ∀ o ∈ s.fieldObservations, o.scope.subject ∈ s.identities

/-- `s` is the part of `t` about the subjects `s` lists. -/
structure State.BatchOf (s t : State V) : Prop where
  own : s.SelfContained
  subjects : s.subjects.Sublist t.subjects
  observations : s.observations.Sublist t.observations
  access : s.access.Sublist t.access
  references : s.references.Sublist t.references
  fieldObservations : s.fieldObservations.Sublist t.fieldObservations
  allObservations : ∀ o ∈ t.observations, o.subject ∈ s.identities → o ∈ s.observations
  allAccess : ∀ a ∈ t.access, a.scope.subject ∈ s.identities → a ∈ s.access

namespace State.BatchOf

variable {s t : State V} {account : Identity} {behavior : Behavior}

theorem identities (h : s.BatchOf t) : s.identities.Sublist t.identities := h.subjects.map _

theorem bound_iff (h : s.BatchOf t) {r : DomainReferences} (hr : r.subject ∈ s.identities) :
    r.Bound t.observations ↔ r.Bound s.observations := by
  refine and_congr ⟨fun hex => ?_, fun hex => ?_⟩ ?_
  · obtain ⟨o, ho, hs, hd⟩ := hex
    exact ⟨o, h.allObservations o ho (hs ▸ hr), hs, hd⟩
  · obtain ⟨o, ho, hk⟩ := hex
    exact ⟨o, h.observations.subset ho, hk⟩
  · exact ⟨fun hall o ho => hall o (h.observations.subset ho),
      fun hall o ho hs => hall o (h.allObservations o ho (hs ▸ hr)) hs⟩

theorem access_iff (h : s.BatchOf t) {a : ResourceAccess} (ha : a.scope.subject ∈ s.identities) :
    a.AcceptedIn account t.identities behavior ↔ a.AcceptedIn account s.identities behavior :=
  ⟨fun hin => { hin with listed := ha }, fun hin => { hin with listed := h.identities.subset ha }⟩

variable [SerdeJson V]

theorem observation_iff (h : s.BatchOf t) {o : Observation V} (ho : o.subject ∈ s.identities) :
    o.AcceptedIn account t.identities behavior ↔ o.AcceptedIn account s.identities behavior :=
  ⟨fun hin => { hin with listed := ho }, fun hin => { hin with listed := h.identities.subset ho }⟩

theorem fieldObservation_iff (h : s.BatchOf t) {o : FieldObservation V} (ho : o.scope.subject ∈ s.identities) :
    o.AcceptedIn account t.identities behavior t.access t.observations ↔
      o.AcceptedIn account s.identities behavior s.access s.observations := by
  refine ⟨fun hin => ?_, fun hin => ?_⟩
  · obtain ⟨a, ha, hs, hr⟩ := hin.readable
    exact { hin with
      listed := ho
      readable := ⟨a, h.allAccess a ha (hs ▸ ho), hs, hr⟩
      native := fun c hc => hin.native c (h.observations.subset hc) }
  · obtain ⟨a, ha, hs, hr⟩ := hin.readable
    exact { hin with
      listed := h.identities.subset ho
      readable := ⟨a, h.access.subset ha, hs, hr⟩
      native := fun c hc he => hin.native c (h.allObservations c hc (by
        rw [← he] at ho
        exact ho)) he }

/-- No part of a coherent whole is coherent only thanks to the rest. -/
theorem coherent (h : s.BatchOf t) (ht : t.Coherent account behavior) : s.Coherent account behavior where
  identities := ht.identities.sublist h.identities
  roles subject hs := ht.roles subject (h.subjects.subset hs)
  observations o ho := (h.observation_iff (h.own.observations o ho)).mp (ht.observations o (h.observations.subset ho))
  origins := ht.origins.sublist (h.observations.map _)
  observed i hi := by
    obtain ⟨o, ho, hs⟩ := ht.observed i (h.identities.subset hi)
    exact ⟨o, h.allObservations o ho (hs ▸ hi), hs⟩
  references r hr := (h.bound_iff (h.own.references r hr)).mp (ht.references r (h.references.subset hr))
  referenceKeys := ht.referenceKeys.sublist (h.references.map _)
  access a ha := (h.access_iff (h.own.access a ha)).mp (ht.access a (h.access.subset ha))
  scopes := ht.scopes.sublist (h.access.map _)
  groups a ha b hb := ht.groups a (h.access.subset ha) b (h.access.subset hb)
  fields o ho := (h.fieldObservation_iff (h.own.fieldObservations o ho)).mp
    (ht.fields o (h.fieldObservations.subset ho))
  fieldScopes := ht.fieldScopes.sublist (h.fieldObservations.map _)

/-- A part is no larger than the whole. -/
theorem withinLimits (hjson : CompactJson V) (h : s.BatchOf t) (ht : t.WithinLimits) : s.WithinLimits where
  subjects := h.subjects.length_le.trans ht.subjects
  observations := h.observations.length_le.trans ht.observations
  access := h.access.length_le.trans ht.access
  references := h.references.length_le.trans ht.references
  fieldObservations := h.fieldObservations.length_le.trans ht.fieldObservations
  referenceUnits := ((h.references.map _).sum_le_sum fun _ _ => Nat.zero_le _).trans ht.referenceUnits
  referenceBytes := ((h.references.map _).sum_le_sum fun _ _ => Nat.zero_le _).trans ht.referenceBytes
  fieldBytes := (hjson.seq_mono (h.fieldObservations.map _)).trans ht.fieldBytes

end State.BatchOf

/-! ## Concatenation -/

instance : Append (State V) where
  append s₁ s₂ := {
    subjects := s₁.subjects ++ s₂.subjects
    observations := s₁.observations ++ s₂.observations
    access := s₁.access ++ s₂.access
    references := s₁.references ++ s₂.references
    fieldObservations := s₁.fieldObservations ++ s₂.fieldObservations }

namespace State

variable {s₁ s₂ : State V} {account : Identity} {behavior : Behavior}

theorem identities_append : (s₁ ++ s₂).identities = s₁.identities ++ s₂.identities := List.map_append

theorem batchOf_append_left (h₁ : s₁.SelfContained) (h₂ : s₂.SelfContained)
    (hd : s₁.identities.Disjoint s₂.identities) : s₁.BatchOf (s₁ ++ s₂) where
  own := h₁
  subjects := List.sublist_append_left _ _
  observations := List.sublist_append_left _ _
  access := List.sublist_append_left _ _
  references := List.sublist_append_left _ _
  fieldObservations := List.sublist_append_left _ _
  allObservations o ho hs := (List.mem_append.mp ho).resolve_right fun ho => hd hs (h₂.observations o ho)
  allAccess a ha hs := (List.mem_append.mp ha).resolve_right fun ha => hd hs (h₂.access a ha)

theorem batchOf_append_right (h₁ : s₁.SelfContained) (h₂ : s₂.SelfContained)
    (hd : s₁.identities.Disjoint s₂.identities) : s₂.BatchOf (s₁ ++ s₂) where
  own := h₂
  subjects := List.sublist_append_right _ _
  observations := List.sublist_append_right _ _
  access := List.sublist_append_right _ _
  references := List.sublist_append_right _ _
  fieldObservations := List.sublist_append_right _ _
  allObservations o ho hs := (List.mem_append.mp ho).resolve_left fun ho => hd (h₁.observations o ho) hs
  allAccess a ha hs := (List.mem_append.mp ha).resolve_left fun ha => hd (h₁.access a ha) hs

/-- Keys that give away their subject stay distinct across batches. -/
theorem nodup_map_append {α κ σ : Type} (subject : α → σ) {key : α → κ} {l₁ l₂ : List α} {A B : List σ}
    (hkey : ∀ a b, key a = key b → subject a = subject b) (hA : ∀ a ∈ l₁, subject a ∈ A)
    (hB : ∀ b ∈ l₂, subject b ∈ B) (hd : A.Disjoint B) (h₁ : (l₁.map key).Nodup) (h₂ : (l₂.map key).Nodup) :
    ((l₁ ++ l₂).map key).Nodup := by
  rw [List.map_append, List.nodup_append']
  refine ⟨h₁, h₂, fun k hk₁ hk₂ => ?_⟩
  obtain ⟨a, ha, rfl⟩ := List.mem_map.mp hk₁
  obtain ⟨b, hb, he⟩ := List.mem_map.mp hk₂
  exact hd (hA a ha) (hkey b a he ▸ hB b hb)

variable [SerdeJson V]

/-- Coherent batches of different subjects are coherent together. -/
theorem Coherent.append (h₁ : s₁.SelfContained) (h₂ : s₂.SelfContained)
    (hd : s₁.identities.Disjoint s₂.identities) (hc₁ : s₁.Coherent account behavior)
    (hc₂ : s₂.Coherent account behavior) : (s₁ ++ s₂).Coherent account behavior := by
  have hl := batchOf_append_left h₁ h₂ hd
  have hr := batchOf_append_right h₁ h₂ hd
  refine ⟨?_, ?_, ?_, ?_, ?_, ?_, ?_, ?_, ?_, ?_, ?_, ?_⟩
  · rw [identities_append, List.nodup_append']
    exact ⟨hc₁.identities, hc₂.identities, hd⟩
  · exact fun subject hs => (List.mem_append.mp hs).elim (hc₁.roles subject) (hc₂.roles subject)
  · exact fun o ho => (List.mem_append.mp ho).elim
      (fun ho => (hl.observation_iff (h₁.observations o ho)).mpr (hc₁.observations o ho))
      (fun ho => (hr.observation_iff (h₂.observations o ho)).mpr (hc₂.observations o ho))
  · refine nodup_map_append (·.subject) (fun a b h => ?_) h₁.observations h₂.observations hd
      hc₁.origins hc₂.origins
    simp only [Observation.originKey, EmbeddingLike.apply_eq_iff_eq, Prod.mk.injEq] at h
    exact h.2.1
  · intro i hi
    rw [identities_append] at hi
    rcases List.mem_append.mp hi with hi | hi
    · obtain ⟨o, ho, hs⟩ := hc₁.observed i hi
      exact ⟨o, hl.observations.subset ho, hs⟩
    · obtain ⟨o, ho, hs⟩ := hc₂.observed i hi
      exact ⟨o, hr.observations.subset ho, hs⟩
  · exact fun r hm => (List.mem_append.mp hm).elim
      (fun hm => (hl.bound_iff (h₁.references r hm)).mpr (hc₁.references r hm))
      (fun hm => (hr.bound_iff (h₂.references r hm)).mpr (hc₂.references r hm))
  · refine nodup_map_append (·.subject) (fun a b h => ?_) h₁.references h₂.references hd
      hc₁.referenceKeys hc₂.referenceKeys
    simp only [DomainReferences.domainKey, EmbeddingLike.apply_eq_iff_eq, Prod.mk.injEq] at h
    exact h.1
  · exact fun a ha => (List.mem_append.mp ha).elim
      (fun ha => (hl.access_iff (h₁.access a ha)).mpr (hc₁.access a ha))
      (fun ha => (hr.access_iff (h₂.access a ha)).mpr (hc₂.access a ha))
  · exact nodup_map_append (·.scope.subject) (fun a b h => congrArg (·.subject) h) h₁.access h₂.access
      hd hc₁.scopes hc₂.scopes
  · intro a ha b hb h
    have hs : a.scope.subject = b.scope.subject := congrArg (·.subject) h
    rcases List.mem_append.mp ha with ha | ha
    · exact hc₁.groups a ha b (hl.allAccess b hb (hs ▸ h₁.access a ha)) h
    · exact hc₂.groups a ha b (hr.allAccess b hb (hs ▸ h₂.access a ha)) h
  · exact fun o ho => (List.mem_append.mp ho).elim
      (fun ho => (hl.fieldObservation_iff (h₁.fieldObservations o ho)).mpr (hc₁.fields o ho))
      (fun ho => (hr.fieldObservation_iff (h₂.fieldObservations o ho)).mpr (hc₂.fields o ho))
  · exact nodup_map_append (·.scope.subject) (fun a b h => congrArg (·.subject) h)
      h₁.fieldObservations h₂.fieldObservations hd hc₁.fieldScopes hc₂.fieldScopes

/-- **Batches compose.** Two batches of different subjects are accepted
together exactly when each is accepted and they keep the limits together. -/
theorem validate_append_iff (hjson : CompactJson V) (account : Identity) (behavior : Behavior)
    (h₁ : s₁.SelfContained) (h₂ : s₂.SelfContained) (hd : s₁.identities.Disjoint s₂.identities) :
    (s₁ ++ s₂).validate account [] behavior = .ok () ↔
      s₁.validate account [] behavior = .ok () ∧ s₂.validate account [] behavior = .ok () ∧
        (s₁ ++ s₂).WithinLimits := by
  have hl := batchOf_append_left h₁ h₂ hd
  have hr := batchOf_append_right h₁ h₂ hd
  have hcovers : ∀ s : State V, ([] : List Identity) ≠ [] → ∀ i, i ∈ s.identities ↔ i ∈ [] :=
    fun _ h => absurd rfl h
  simp only [validate_ok]
  refine ⟨fun h => ⟨?_, ?_, h.limits⟩, fun h => ?_⟩
  · exact ⟨h.declared, hl.withinLimits hjson h.limits, hl.coherent h.coherent, hcovers _⟩
  · exact ⟨h.declared, hr.withinLimits hjson h.limits, hr.coherent h.coherent, hcovers _⟩
  · obtain ⟨hv₁, hv₂, hlim⟩ := h
    exact ⟨hv₁.declared, hlim, .append h₁ h₂ hd hv₁.coherent hv₂.coherent, hcovers _⟩

end State

def sampleDomain : Domain where
  identity := .sample
  revision := "r1"
  unit := .sample
  ordering := .unordered
  units := []
  closed := true
  ok := ⟨by decide, by decide, by decide, fun _ => .nil⟩

def sampleBehavior : Behavior := ⟨"r1", .collect [.sample], .collect [.sample], []⟩

def sampleState (subject : Identity) : State SampleJson where
  subjects := [⟨subject, .new, .sample, "label"⟩]
  observations := [⟨.sample, .sample, subject, .sample, "r1", none, 0, sampleDomain, .complete, .missing, .text 0⟩]
  access := []
  references := []
  fieldObservations := []

def otherIdentity : Identity := ⟨.sample, "other", by decide⟩

def unitDomain : Domain where
  identity := .sample
  revision := "r1"
  unit := .sample
  ordering := .unordered
  units := [.sample]
  closed := true
  ok := ⟨by decide, by decide, by decide, fun _ => List.pairwise_singleton _ _⟩

def readScope (subject : Identity) : EffectScope := ⟨.sample, subject, ⟨"sample:read", by decide⟩⟩

def unitReferences (subject : Identity) : DomainReferences where
  subject := subject
  domain := unitDomain
  units := [⟨.sample, "unit"⟩]
  ok :=
    { covers := .refl _
      distinct := by decide
      references := fun b hb => by
        cases List.mem_singleton.mp hb
        exact ⟨by decide, by decide, by decide⟩
      bounded := by decide
      sorted := List.pairwise_singleton _ _ }

/-- One subject: a domain of one unit, which is referenced, and a field of
its own that is readable and was read. -/
def fullState (subject : Identity) : State SampleJson where
  subjects := [⟨subject, .new, .sample, "label"⟩]
  observations := [⟨.sample, .sample, subject, .sample, "r1", none, 0, unitDomain, .complete, .missing, .text 0⟩]
  access := [⟨readScope subject, .sample, ⟨.sample, subject, .sample⟩, "r1", true, false⟩]
  references := [unitReferences subject]
  fieldObservations := [⟨readScope subject, "r1", none, 0, .complete, .known (.text 2)⟩]

/-- Two subjects, one a batch. -/
theorem fullState_validate_append :
    (fullState .sample ++ fullState otherIdentity).validate .sample [] sampleBehavior = .ok () := by
  have hd : (fullState .sample).identities.Disjoint (fullState otherIdentity).identities :=
    List.singleton_disjoint.mpr (by decide)
  refine (State.validate_append_iff SampleJson.compact .sample sampleBehavior ?_ ?_ hd).mpr
    ⟨by decide +kernel, by decide +kernel, ?_⟩
  · exact ⟨by decide, by decide, by decide, by decide⟩
  · exact ⟨by decide, by decide, by decide, by decide⟩
  · exact ⟨by decide, by decide, by decide, by decide, by decide, by decide, by decide, by decide +kernel⟩

end ProviderSdk
