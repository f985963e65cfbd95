/-
Domains and references as canonical forms (`completion.rs`).

Domains are compared by equality, so `Domain::new` has to leave one form of
each: the units of an unordered domain are sorted, and two lists of distinct
units have one sorted form exactly when each is a reordering of the other.
`DomainReferences::new` sorts by unit whatever the domain does, and what it
returns binds the units of the domain to references one to one.
-/
import ProviderSdk.CompletionWire

namespace ProviderSdk

open Checks Text

/-! ## Domains -/

def requireSameDomain (left right : Domain) : Except ModelError Unit :=
  reject (left ≠ right) .incompatibleDomain

/-- A domain as `serde` reads and writes it. -/
structure DomainData where
  identity : Identity
  revision : String
  unit : Name
  ordering : Ordering
  units : List Identity
  closed : Bool

def Domain.tryFromData (value : DomainData) : Except ModelError Domain :=
  Domain.new value.identity value.revision value.unit value.ordering value.units value.closed

def Domain.intoData (self : Domain) : DomainData where
  identity := self.identity
  revision := self.revision
  unit := self.unit
  ordering := self.ordering
  units := self.units
  closed := self.closed

/-- Arranging is a canonical form: of the order of declaration, it forgets
what the ordering says does not matter, and no more. -/
theorem Ordering.arrange_eq_iff {ordering : Ordering} {units units' : List Identity} :
    ordering.arrange units = ordering.arrange units' ↔
      if ordering = .unordered then units.Perm units' else units = units' := by
  by_cases h : ordering = .unordered
  · rw [if_pos h]
    refine ⟨fun he => ?_, fun hp => ?_⟩
    · have hp := ordering.arrange_perm units
      rw [he] at hp
      exact hp.symm.trans (ordering.arrange_perm units')
    · have hp' := ((ordering.arrange_perm units).trans hp).trans (ordering.arrange_perm units').symm
      exact hp'.eq_of_pairwise' (arrange_sorted h) (arrange_sorted h)
  · rw [if_neg h, arrange, arrange, if_neg h, if_neg h]

section

variable {identity : Identity} {revision : String} {unit : Name} {ordering : Ordering}
  {units units' : List Identity} {closed : Bool} {d d' : Domain}

theorem Domain.new_accepts : (∃ d, Domain.new identity revision unit ordering units closed = .ok d) ↔
    (1 ≤ revision.utf8ByteSize ∧ revision.utf8ByteSize ≤ 4096) ∧ units.length ≤ 100000 ∧ units.Nodup := by
  have hrevision : ¬ (revision = "" ∨ revision.utf8ByteSize > maximumRevisionBytes) ↔
      1 ≤ revision.utf8ByteSize ∧ revision.utf8ByteSize ≤ 4096 := by
    rw [← String.utf8ByteSize_eq_zero_iff, maximumRevisionBytes]
    omega
  refine ⟨fun h => ?_, fun h => ?_⟩
  · obtain ⟨d, h⟩ := h
    obtain ⟨hr, hl, hd, _⟩ := Domain.new_ok.mp h
    exact ⟨hrevision.mp hr, hl, hd⟩
  · obtain ⟨hr, hl, hd⟩ := h
    have hp := ordering.arrange_perm units
    have hok : DomainOk revision ordering (ordering.arrange units) :=
      ⟨hrevision.mpr hr, hp.length_eq ▸ hl, hp.nodup_iff.mpr hd, Ordering.arrange_sorted⟩
    exact ⟨⟨identity, revision, unit, ordering, ordering.arrange units, closed, hok⟩,
      Domain.new_ok.mpr ⟨hok.revisionOk, hl, hd, rfl, rfl, rfl, rfl, rfl, rfl⟩⟩

/-- Domains declared alike but for their units are one where the units are
arranged alike. -/
theorem Domain.new_eq_iff (h : Domain.new identity revision unit ordering units closed = .ok d)
    (h' : Domain.new identity revision unit ordering units' closed = .ok d') :
    d = d' ↔ if ordering = .unordered then units.Perm units' else units = units' := by
  obtain ⟨_, _, _, hi, hr, hu, ho, hs, hc⟩ := Domain.new_ok.mp h
  obtain ⟨_, _, _, hi', hr', hu', ho', hs', hc'⟩ := Domain.new_ok.mp h'
  rw [← Ordering.arrange_eq_iff, ← hs, ← hs']
  cases d
  cases d'
  simp_all

theorem requireSameDomain_ok {left right : Domain} {u : Unit} :
    requireSameDomain left right = .ok u ↔ left = right := by
  rw [requireSameDomain, reject_ok, not_not]

theorem Domain.mem_units (h : Domain.new identity revision unit ordering units closed = .ok d) {i : Identity} :
    i ∈ d.units ↔ i ∈ units := by
  obtain ⟨_, _, _, _, _, _, _, hs, _⟩ := Domain.new_ok.mp h
  rw [hs]
  exact (ordering.arrange_perm units).mem_iff

end

/-- **A domain is what was declared, in its one form.** What is accepted;
that domains are compared by what their ordering says of their units; that a
domain is rebuilt from its parts, on the wire too; and that units are
selected from those declared, whatever their order. -/
theorem Domain.new_canonical :
    (∀ identity revision unit ordering units closed,
      (∃ d, Domain.new identity revision unit ordering units closed = .ok d) ↔
        (1 ≤ revision.utf8ByteSize ∧ revision.utf8ByteSize ≤ 4096) ∧ units.length ≤ 100000 ∧ units.Nodup) ∧
    (∀ identity revision unit ordering closed units units' d d',
      Domain.new identity revision unit ordering units closed = .ok d →
      Domain.new identity revision unit ordering units' closed = .ok d' →
      (requireSameDomain d d' = .ok () ↔ if ordering = .unordered then units.Perm units' else units = units')) ∧
    (∀ d : Domain, Domain.new d.identity d.revision d.unit d.ordering d.units d.closed = .ok d ∧
      Domain.tryFromData d.intoData = .ok d ∧ Domain.tryFrom d.into = .ok d) ∧
    ∀ identity revision unit ordering units closed d,
      Domain.new identity revision unit ordering units closed = .ok d →
      ∀ selected : BTreeSet Identity, d.validateUnits selected = .ok () ↔ ∀ i ∈ selected, i ∈ units := by
  refine ⟨fun identity revision unit ordering units closed => Domain.new_accepts,
    fun identity revision unit ordering closed units units' d d' h h' => ?_,
    fun d => ⟨d.new_parts, d.new_parts, d.tryFrom_into⟩,
    fun identity revision unit ordering units closed d h selected => ?_⟩
  · rw [requireSameDomain_ok]
    exact Domain.new_eq_iff h h'
  · rw [Domain.validateUnits_ok]
    exact forall₂_congr fun i _ => Domain.mem_units h

/-! ## References -/

/-- References as `serde` reads them. -/
structure DomainReferencesData where
  subject : Identity
  domain : Domain
  units : List UnitReference

def DomainReferences.intoParts (self : DomainReferences) : Identity × Domain × List UnitReference :=
  (self.subject, self.domain, self.units)

def DomainReferences.tryFromData (value : DomainReferencesData) : Except ModelError DomainReferences :=
  DomainReferences.new value.subject value.domain value.units

section

variable {subject : Identity} {domain : Domain} {units units' : List UnitReference} {r : DomainReferences}

theorem referenceOk_iff {reference : String} : ReferenceOk reference ↔
    (1 ≤ reference.utf8ByteSize ∧ reference.utf8ByteSize ≤ 4096) ∧ hasControl reference = false := by
  rw [ReferenceOk, and_assoc, ne_eq, ← String.utf8ByteSize_eq_zero_iff, Nat.one_le_iff_ne_zero]

theorem DomainReferences.new_accepts : (∃ r, DomainReferences.new subject domain units = .ok r) ↔
    (units.map (·.unit)).Perm domain.units ∧ (units.map (·.reference)).Nodup ∧
    (∀ b ∈ units, ReferenceOk b.reference) ∧ (units.map (·.bytes)).sum ≤ 4 * 1024 * 1024 := by
  refine ⟨fun h => ?_, fun h => ?_⟩
  · obtain ⟨r, h⟩ := h
    obtain ⟨hc, hd, hr, hb, _⟩ := DomainReferences.new_ok.mp h
    exact ⟨hc, hd, hr, hb⟩
  · obtain ⟨hc, hd, hr, hb⟩ := h
    have hp := sortByUnit_perm units
    have hok : DomainReferencesOk domain (sortByUnit units) :=
      ⟨(hp.map _).trans hc, (hp.map _).nodup_iff.mpr hd, fun b hm => hr b (hp.mem_iff.mp hm),
        (hp.map (·.bytes)).sum_eq ▸ hb, sortByUnit_sorted units⟩
    exact ⟨⟨subject, domain, sortByUnit units, hok⟩, DomainReferences.new_ok.mpr ⟨hc, hd, hr, hb, rfl, rfl, rfl⟩⟩

/-- Whatever is wrong with a list of bindings, the error is one. -/
theorem DomainReferences.new_failsIn :
    FailsIn (· = .invalidReferenceBinding) (DomainReferences.new subject domain units) := by
  have hstep : ∀ scan : BindingScan, ∀ b, FailsIn (· = .invalidReferenceBinding) (scan.step b) := fun scan b =>
    .bind (.okOr fun _ => rfl) fun _ _ => .bind (.reject fun _ => rfl) fun _ _ => .pure
  intro e h
  unfold DomainReferences.new at h
  split at h
  · cases h
    rfl
  split at h
  · rename_i e' he
    cases h
    exact FailsIn.foldlM (fun scan b _ => hstep scan b) _ he
  · split at h
    · cases h
    · cases h
      rfl

theorem DomainReferences.new_reorder (hp : units.Perm units') :
    DomainReferences.new subject domain units' = DomainReferences.new subject domain units := by
  cases h : DomainReferences.new subject domain units with
  | ok r => exact new_perm hp h
  | error e =>
    cases h' : DomainReferences.new subject domain units' with
    | ok r =>
      rw [new_perm hp.symm h'] at h
      cases h
    | error e' => rw [new_failsIn _ h, new_failsIn _ h']

/-- A unit of the domain has one reference. -/
theorem DomainReferences.reference_unique (r : DomainReferences) {i : Identity} (hi : i ∈ r.domain.units) :
    ∃! reference, ⟨i, reference⟩ ∈ r.units := by
  have hd : (r.units.map (·.unit)).Nodup := r.ok.covers.nodup_iff.mpr r.domain.ok.distinct
  obtain ⟨b, hb, he⟩ := List.mem_map.mp (r.ok.covers.mem_iff.mpr hi)
  subst he
  refine ⟨b.reference, hb, fun reference hm => ?_⟩
  exact congrArg (·.reference) (List.inj_on_of_nodup_map hd hm hb rfl)

/-- A reference stands for one unit. -/
theorem DomainReferences.unit_unique (r : DomainReferences) {reference : String}
    (hr : reference ∈ r.units.map (·.reference)) : ∃! i, ⟨i, reference⟩ ∈ r.units := by
  obtain ⟨b, hb, he⟩ := List.mem_map.mp hr
  subst he
  refine ⟨b.unit, hb, fun i hm => ?_⟩
  exact congrArg (·.unit) (List.inj_on_of_nodup_map r.ok.distinct hm hb rfl)

end

/-- **References bind units one to one.** What is accepted; that neither the
result nor the error depends on the order of the bindings, which are kept
sorted by unit; that references are rebuilt from their parts; and that in
all of them each unit of the domain has one reference and each reference one
unit. -/
theorem DomainReferences.new_bijective :
    (∀ subject domain (units : List UnitReference),
      (∃ r, DomainReferences.new subject domain units = .ok r) ↔
        (units.map (·.unit)).Perm domain.units ∧ (units.map (·.reference)).Nodup ∧
        (∀ b ∈ units, (1 ≤ b.reference.utf8ByteSize ∧ b.reference.utf8ByteSize ≤ 4096) ∧
          hasControl b.reference = false) ∧
        (units.map fun b => b.reference.utf8ByteSize + b.unit.namespaceName.value.utf8ByteSize +
          b.unit.value.utf8ByteSize).sum ≤ 4 * 1024 * 1024) ∧
    (∀ subject domain (units units' : List UnitReference), units.Perm units' →
      DomainReferences.new subject domain units' = DomainReferences.new subject domain units) ∧
    (∀ subject domain (units : List UnitReference) r, DomainReferences.new subject domain units = .ok r →
      r.subject = subject ∧ r.domain = domain ∧ r.units.Perm units ∧
        r.units.Pairwise fun left right => left.unit ≤ right.unit) ∧
    (∀ r : DomainReferences,
      DomainReferences.new r.intoParts.1 r.intoParts.2.1 r.intoParts.2.2 = .ok r ∧
      DomainReferences.tryFromData ⟨r.intoParts.1, r.intoParts.2.1, r.intoParts.2.2⟩ = .ok r) ∧
    ∀ r : DomainReferences, (∀ b ∈ r.units, b.unit ∈ r.domain.units) ∧
      (∀ i ∈ r.domain.units, ∃! reference, ⟨i, reference⟩ ∈ r.units) ∧
      ∀ reference ∈ r.units.map (·.reference), ∃! i, ⟨i, reference⟩ ∈ r.units := by
  refine ⟨fun subject domain units => ?_, fun subject domain units units' hp => DomainReferences.new_reorder hp,
    fun subject domain units r h => ?_, fun r => ⟨r.new_parts, r.new_parts⟩,
    fun r => ⟨fun b hb => ?_, fun i hi => r.reference_unique hi, fun reference hr => r.unit_unique hr⟩⟩
  · simp only [DomainReferences.new_accepts, referenceOk_iff]
    rfl
  · obtain ⟨_, _, _, _, hs, hm, hu⟩ := DomainReferences.new_ok.mp h
    rw [hu]
    exact ⟨hs, hm, sortByUnit_perm units, sortByUnit_sorted units⟩
  · exact r.ok.covers.mem_iff.mp (List.mem_map_of_mem hb)

end ProviderSdk
