/-
The completion state of a read (`completion_state.rs`).

`State::validate` is five loops over accumulators. Each loop body is a
definition with a `Guarded` lemma; the lemmas below say what the loops
accept together, with the accumulators gone (`State.validate_ok`).
-/
import ProviderSdk.CompletionOperation

namespace ProviderSdk

open Checks Text

def maximumStateItems : Nat := 100000
def maximumReferenceBytes : Nat := 4 * 1024 * 1024
def maximumFieldObservationBytes : Nat := 4 * 1024 * 1024

structure State (V : Type) where
  subjects : List Subject
  observations : List (Observation V)
  access : List ResourceAccess
  references : List DomainReferences
  fieldObservations : List (FieldObservation V)

variable {V : Type}

/-! ## Keys -/

/-- What no two observations may share. -/
def Observation.originKey (o : Observation V) : Identity ×ₗ Identity ×ₗ Name ×ₗ Identity :=
  toLex (o.origin, toLex (o.subject, toLex (o.field, o.domain.identity)))

/-- The key of an observation's domain. -/
def Observation.domainKey (o : Observation V) : Identity ×ₗ Identity := toLex (o.subject, o.domain.identity)

/-- The key of the domain a reference binds. -/
def DomainReferences.domainKey (r : DomainReferences) : Identity ×ₗ Identity :=
  toLex (r.subject, r.domain.identity)

/-- The scope an observation reads. -/
def Observation.scope (o : Observation V) : EffectScope := ⟨o.account, o.subject, o.field⟩

/-- The group of an access entry as the provider names it. -/
def ResourceAccess.native (a : ResourceAccess) : EffectGroup := ⟨a.scope.account, a.scope.subject, a.group⟩

/-- The bytes of a reference's bindings. -/
def DomainReferences.bytes (r : DomainReferences) : Nat := (r.units.map (·.bytes)).sum

/-! ## The loop over the observations -/

/-- A domain per key, or `none` where two observations disagree on it. -/
abbrev DomainMap : Type := BTreeMap (Identity ×ₗ Identity) (Option Domain)

/-- `domains.entry(..).or_insert(..)`, then poisoning on a conflict. -/
def DomainMap.record (domains : DomainMap) (o : Observation V) : DomainMap :=
  let domain := (domains.get o.domainKey).getD (some o.domain)
  (domains.insert o.domainKey (if domain ≠ some o.domain then none else domain)).1

/-- A scan holds nothing for a key exactly where no observation has it. -/
theorem DomainMap.record_get_none {observations : List (Observation V)} {k : Identity ×ₗ Identity} :
    (observations.foldl DomainMap.record .new).get k = none ↔ ∀ o ∈ observations, o.domainKey ≠ k := by
  induction observations using List.reverseRecOn with
  | nil => simp
  | append_singleton l o ih =>
    rw [List.foldl_concat, record, BTreeMap.get_insert]
    split
    · rename_i hk
      simp [hk]
    · rename_i hk
      simp [ih, or_imp, forall_and, Ne.symm hk]

/-- The domain a scan holds for a key is the one all its observations
share. -/
theorem DomainMap.record_get {observations : List (Observation V)} {k : Identity ×ₗ Identity} {d : Domain} :
    (observations.foldl DomainMap.record .new).get k = some (some d) ↔
      (∃ o ∈ observations, o.domainKey = k) ∧ ∀ o ∈ observations, o.domainKey = k → o.domain = d := by
  induction observations using List.reverseRecOn with
  | nil => simp
  | append_singleton l o ih =>
    rw [List.foldl_concat, record, BTreeMap.get_insert]
    split
    · rename_i hk
      subst hk
      have hlast : ((∃ o' ∈ l ++ [o], o'.domainKey = o.domainKey) ∧
          ∀ o' ∈ l ++ [o], o'.domainKey = o.domainKey → o'.domain = d) ↔
          (∀ o' ∈ l, o'.domainKey = o.domainKey → o'.domain = d) ∧ o.domain = d := by
        simp [or_imp, forall_and]
      rw [hlast]
      cases hget : (l.foldl DomainMap.record .new).get o.domainKey with
      | none =>
        have hno := record_get_none.mp hget
        have hvacuous : ∀ o' ∈ l, o'.domainKey = o.domainKey → o'.domain = d :=
          fun o' ho' hk => absurd hk (hno o' ho')
        rw [and_iff_right hvacuous]
        simp
      | some domain =>
        have hsome : ∃ o' ∈ l, o'.domainKey = o.domainKey := by
          have hheld : (l.foldl DomainMap.record .new).get o.domainKey ≠ none := by simp [hget]
          have h := record_get_none.not.mp hheld
          push Not at h
          exact h
        have hih : domain = some d ↔ ∀ o' ∈ l, o'.domainKey = o.domainKey → o'.domain = d := by
          have h := ih.trans (and_iff_right hsome)
          rw [hget, Option.some.injEq] at h
          exact h
        rw [← hih, Option.getD_some, Option.some.injEq]
        split
        · rename_i hne
          simp only [reduceCtorEq, false_iff, not_and]
          exact fun h₁ h₂ => hne (by rw [h₁, h₂])
        · rename_i heq
          rw [not_not] at heq
          simp [heq]
    · rename_i hk
      simp [ih, or_imp, forall_and, Ne.symm hk]

structure ObservationScan where
  observed : BTreeSet Identity
  origins : BTreeSet (Identity ×ₗ Identity ×ₗ Name ×ₗ Identity)
  domains : DomainMap

def ObservationScan.after (observations : List (Observation V)) : ObservationScan where
  observed := .collect (observations.map (·.subject))
  origins := .collect (observations.map (·.originKey))
  domains := observations.foldl DomainMap.record .new

variable {account : Identity} {subjects : List Identity} {behavior : Behavior}

section

variable [SerdeJson V]

def scanObservation (account : Identity) (subjects : BTreeSet Identity) (behavior : Behavior)
    (scan : ObservationScan) (observation : Observation V) : Except String ObservationScan := do
  observation.validate.mapError fun _ => "invalid completion observation"
  let (origins, fresh) := scan.origins.insert observation.originKey
  reject (observation.account ≠ account ∨ observation.subject ∉ subjects ∨
    observation.behaviorRevision ≠ behavior.revision ∨ observation.domain.unit ∉ behavior.units ∨ ¬ fresh)
    "completion observation scope mismatch"
  pure { observed := (scan.observed.insert observation.subject).1, origins
         domains := scan.domains.record observation }

/-- What an observation must be by itself. -/
structure Observation.AcceptedIn (account : Identity) (subjects : List Identity) (behavior : Behavior)
    (o : Observation V) : Prop where
  valid : o.Valid
  inAccount : o.account = account
  listed : o.subject ∈ subjects
  revision : o.behaviorRevision = behavior.revision
  unit : o.domain.unit ∈ behavior.units

theorem scanObservation_guarded :
    Guarded (ε := String) (scanObservation (V := V) account (.collect subjects) behavior)
      (fun scan o => o.AcceptedIn account subjects behavior ∧ o.originKey ∉ scan.origins)
      (fun scan o => ⟨(scan.observed.insert o.subject).1, (scan.origins.insert o.originKey).1,
        scan.domains.record o⟩) where
  ok_iff {scan o r} := by
    simp only [scanObservation, bind_ok, mapError_ok, Observation.validate_ok, exists_const, reject_ok, pure_ok,
      BTreeSet.mem_collect, BTreeSet.insert_fresh, not_or, not_not, ne_eq]
    refine ⟨fun h => ?_, fun h => ?_⟩
    · obtain ⟨h₁, ⟨h₂, h₃, h₄, h₅, h₆⟩, h⟩ := h
      exact ⟨⟨⟨h₁, h₂, h₃, h₄, h₅⟩, h₆⟩, h⟩
    · obtain ⟨⟨⟨h₁, h₂, h₃, h₄, h₅⟩, h₆⟩, h⟩ := h
      exact ⟨h₁, ⟨h₂, h₃, h₄, h₅, h₆⟩, h⟩

theorem scanObservations_ok {observations : List (Observation V)} {scan : ObservationScan} :
    observations.foldlM (scanObservation account (.collect subjects) behavior) ⟨.new, .new, .new⟩ = .ok scan ↔
      ((∀ o ∈ observations, o.AcceptedIn account subjects behavior) ∧
        (observations.map (·.originKey)).Nodup) ∧ ObservationScan.after observations = scan := by
  rw [scanObservation_guarded.foldlM_after (b := ⟨.new, .new, .new⟩) ObservationScan.after rfl
    fun pre o => by simp [ObservationScan.after]]
  simp only [ObservationScan.after, BTreeSet.mem_collect, each_and, each_forall, each_fresh]

end

/-! ## The loop over the references -/

structure ReferenceScan where
  references : BTreeSet (Identity ×ₗ Identity)
  remainingUnits : Nat
  remainingBytes : Nat

/-- The body of the loop over a reference's bindings. -/
def scanUnit (remainingBytes : Nat) (unit : UnitReference) : Except String Nat :=
  okOr (checkedSub remainingBytes unit.bytes) "completion references exceed limits"

def scanReference (domains : DomainMap) (scan : ReferenceScan) (binding : DomainReferences) :
    Except String ReferenceScan := do
  let (references, fresh) := scan.references.insert binding.domainKey
  reject (¬ fresh ∨ (domains.get binding.domainKey).join ≠ some binding.domain)
    "completion reference domain mismatch"
  let remainingUnits ← okOr (checkedSub scan.remainingUnits binding.units.length)
    "completion references exceed limits"
  let remainingBytes ← binding.units.foldlM scanUnit scan.remainingBytes
  pure { references, remainingUnits, remainingBytes }

theorem scanUnits_ok {units : List UnitReference} {remaining r : Nat} :
    units.foldlM scanUnit remaining = .ok r ↔
      (units.map (·.bytes)).sum ≤ remaining ∧ remaining - (units.map (·.bytes)).sum = r := by
  have hg : Guarded (ε := String) scanUnit (fun remaining unit => unit.bytes ≤ remaining)
      (fun remaining unit => remaining - unit.bytes) := ⟨by simp [scanUnit, checkedSub_eq_some]⟩
  rw [hg.foldlM_after (fun pre => remaining - (pre.map (·.bytes)).sum) (by simp)
    fun pre x => by simp [Nat.sub_sub], each_countdown]

/-- The domain a reference must carry: that of all observations of its
subject and domain identity, of which there is one. -/
def DomainReferences.Bound (observations : List (Observation V)) (r : DomainReferences) : Prop :=
  (∃ o ∈ observations, o.subject = r.subject ∧ o.domain.identity = r.domain.identity) ∧
    ∀ o ∈ observations, o.subject = r.subject → o.domain.identity = r.domain.identity → o.domain = r.domain

theorem scanReference_guarded {observations : List (Observation V)} :
    Guarded (ε := String) (scanReference (observations.foldl DomainMap.record .new))
      (fun scan r => r.domainKey ∉ scan.references ∧ r.Bound observations ∧
        r.units.length ≤ scan.remainingUnits ∧ r.bytes ≤ scan.remainingBytes)
      (fun scan r => ⟨(scan.references.insert r.domainKey).1, scan.remainingUnits - r.units.length,
        scan.remainingBytes - r.bytes⟩) where
  ok_iff {scan r out} := by
    have hb : ((observations.foldl DomainMap.record .new).get r.domainKey).join = some r.domain ↔
        r.Bound observations := by
      simp only [Option.join_eq_some_iff, DomainMap.record_get, DomainReferences.Bound, Observation.domainKey,
        DomainReferences.domainKey, EmbeddingLike.apply_eq_iff_eq, Prod.mk.injEq, and_imp]
    simp only [scanReference, bind_ok, reject_ok, not_or, not_not, ne_eq, hb, exists_const, okOr_ok,
      checkedSub_eq_some, scanUnits_ok, pure_ok, BTreeSet.insert_fresh, DomainReferences.bytes]
    refine ⟨fun h => ?_, fun h => ?_⟩
    · obtain ⟨⟨h₁, h₂⟩, _, ⟨h₃, e₃⟩, _, ⟨h₄, e₄⟩, h⟩ := h
      exact ⟨⟨h₁, h₂, h₃, h₄⟩, by rw [e₃, e₄]; exact h⟩
    · obtain ⟨⟨h₁, h₂, h₃, h₄⟩, h⟩ := h
      exact ⟨⟨h₁, h₂⟩, _, ⟨h₃, rfl⟩, _, ⟨h₄, rfl⟩, h⟩

theorem scanReferences_ok (observations : List (Observation V)) {references : List DomainReferences}
    {units bytes : Nat} {scan : ReferenceScan} :
    references.foldlM (scanReference (observations.foldl DomainMap.record .new)) ⟨.new, units, bytes⟩ = .ok scan ↔
      ((references.map (·.domainKey)).Nodup ∧ (∀ r ∈ references, r.Bound observations) ∧
        (references.map (·.units.length)).sum ≤ units ∧ (references.map (·.bytes)).sum ≤ bytes) ∧
      ⟨.collect (references.map (·.domainKey)), units - (references.map (·.units.length)).sum,
        bytes - (references.map (·.bytes)).sum⟩ = scan := by
  rw [scanReference_guarded.foldlM_after (b := ⟨.new, units, bytes⟩) (fun pre => ⟨.collect (pre.map (·.domainKey)),
    units - (pre.map (·.units.length)).sum, bytes - (pre.map (·.bytes)).sum⟩) (by simp)
    fun pre r => by simp [Nat.sub_sub]]
  simp only [BTreeSet.mem_collect, each_and, each_forall, each_fresh, each_countdown]

/-! ## The loop over the access entries -/

structure AccessScan where
  scopes : BTreeMap EffectScope ResourceAccess
  groups : BTreeMap EffectGroup EffectGroup

def scanAccess (account : Identity) (subjects : BTreeSet Identity) (behavior : Behavior) (scan : AccessScan)
    (access : ResourceAccess) : Except String AccessScan := do
  (access.validate behavior).mapError fun _ => "invalid completion resource access"
  let (scopes, replaced) := scan.scopes.insert access.scope access
  reject (access.scope.account ≠ account ∨ access.scope.subject ∉ subjects ∨ replaced.isSome)
    "completion resource access scope mismatch"
  let (groups, previous) := scan.groups.insert access.native access.canonicalGroup
  reject (previous.any fun previous => previous ≠ access.canonicalGroup)
    "inconsistent completion canonical groups"
  pure { scopes, groups }

/-- What an access entry must be by itself, in a valid behavior. -/
structure ResourceAccess.AcceptedIn (account : Identity) (subjects : List Identity) (behavior : Behavior)
    (a : ResourceAccess) : Prop where
  valid : a.Valid behavior
  inAccount : a.scope.account = account
  listed : a.scope.subject ∈ subjects

def AccessScan.after (access : List ResourceAccess) : AccessScan where
  scopes := .collect (access.map fun a => (a.scope, a))
  groups := .collect (access.map fun a => (a.native, a.canonicalGroup))

theorem scanAccess_guarded (hb : behavior.Valid) :
    Guarded (ε := String) (scanAccess account (.collect subjects) behavior)
      (fun scan a => a.AcceptedIn account subjects behavior ∧ scan.scopes.get a.scope = none ∧
        ∀ g, scan.groups.get a.native = some g → g = a.canonicalGroup)
      (fun scan a => ⟨(scan.scopes.insert a.scope a).1, (scan.groups.insert a.native a.canonicalGroup).1⟩) where
  ok_iff {scan a r} := by
    have hg : ¬ ((scan.groups.get a.native).any fun g => g ≠ a.canonicalGroup) = true ↔
        ∀ g, scan.groups.get a.native = some g → g = a.canonicalGroup := by
      cases scan.groups.get a.native <;> simp
    simp only [scanAccess, bind_ok, mapError_ok, ResourceAccess.validate_ok, exists_const, reject_ok, not_or,
      not_not, Option.not_isSome_iff_eq_none, BTreeSet.mem_collect, pure_ok, hb, true_and]
    simp only [BTreeMap.insert_previous, hg]
    refine ⟨fun h => ?_, fun h => ?_⟩
    · obtain ⟨h₁, ⟨h₂, h₃, h₄⟩, h₅, h⟩ := h
      exact ⟨⟨⟨h₁, h₂, h₃⟩, h₄, h₅⟩, h⟩
    · obtain ⟨⟨⟨h₁, h₂, h₃⟩, h₄, h₅⟩, h⟩ := h
      exact ⟨h₁, ⟨h₂, h₃, h₄⟩, h₅, h⟩

theorem scanAccesses_ok (hb : behavior.Valid) {access : List ResourceAccess} {scan : AccessScan} :
    access.foldlM (scanAccess account (.collect subjects) behavior) ⟨.new, .new⟩ = .ok scan ↔
      ((∀ a ∈ access, a.AcceptedIn account subjects behavior) ∧ (access.map (·.scope)).Nodup ∧
        ∀ a ∈ access, ∀ b ∈ access, a.native = b.native → a.canonicalGroup = b.canonicalGroup) ∧
      AccessScan.after access = scan := by
  rw [(scanAccess_guarded hb).foldlM_after (b := ⟨.new, .new⟩) AccessScan.after rfl
    fun pre a => by simp [AccessScan.after]]
  have hkeys : ∀ l : List ResourceAccess, (l.map fun a => (a.scope, a)).map (·.1) = l.map (·.scope) := by simp
  simp only [AccessScan.after, each_and, each_forall, BTreeMap.each_agree, BTreeMap.get_collect_eq_none, hkeys,
    each_fresh]

/-! ## The loop over the field observations -/

section

variable [SerdeJson V]

def scanFieldObservation (account : Identity) (subjects : BTreeSet Identity) (behavior : Behavior)
    (scopes : BTreeMap EffectScope ResourceAccess) (completionScopes fieldScopes : BTreeSet EffectScope)
    (observation : FieldObservation V) : Except String (BTreeSet EffectScope) := do
  observation.validate.mapError fun _ => "invalid native field observation"
  let access ← okOr (scopes.get observation.scope) "native field access is missing"
  let (fieldScopes, fresh) := fieldScopes.insert observation.scope
  reject (observation.scope.account ≠ account ∨ observation.scope.subject ∉ subjects ∨
    observation.behaviorRevision ≠ behavior.revision ∨ ¬ fresh ∨ observation.scope ∈ completionScopes ∨
    observation.quality = .complete ∧ access.readable = false) "native field observation scope mismatch"
  pure fieldScopes

/-- What a field observation must be by itself, next to the access entries
and the completion observations of its state. -/
structure FieldObservation.AcceptedIn (account : Identity) (subjects : List Identity) (behavior : Behavior)
    (access : List ResourceAccess) (observations : List (Observation V)) (o : FieldObservation V) : Prop where
  valid : o.Valid
  inAccount : o.scope.account = account
  listed : o.scope.subject ∈ subjects
  revision : o.behaviorRevision = behavior.revision
  readable : ∃ a ∈ access, a.scope = o.scope ∧ (o.quality = .complete → a.readable = true)
  native : ∀ c ∈ observations, c.scope ≠ o.scope

theorem scanFieldObservation_guarded {access : List ResourceAccess} {observations : List (Observation V)}
    (hd : (access.map (·.scope)).Nodup) :
    Guarded (ε := String) (scanFieldObservation (V := V) account (.collect subjects) behavior
        (AccessScan.after access).scopes (.collect (observations.map (·.scope))))
      (fun fieldScopes o => o.AcceptedIn account subjects behavior access observations ∧ o.scope ∉ fieldScopes)
      (fun fieldScopes o => (fieldScopes.insert o.scope).1) where
  ok_iff {fieldScopes o r} := by
    have hget : ∀ a, (AccessScan.after access).scopes.get o.scope = some a ↔ a ∈ access ∧ a.scope = o.scope := by
      intro a
      have hk : (access.map fun a => (a.scope, a)).map (·.1) = access.map (·.scope) := by simp
      rw [AccessScan.after, BTreeMap.get_collect (hk ▸ hd)]
      simp only [List.mem_map, Prod.mk.injEq]
      refine ⟨fun h => ?_, fun h => ?_⟩
      · obtain ⟨b, hb, hs, he⟩ := h
        exact he ▸ ⟨hb, hs⟩
      · obtain ⟨ha, hs⟩ := h
        exact ⟨a, ha, hs, rfl⟩
    have hn : o.scope ∉ observations.map (·.scope) ↔ ∀ c ∈ observations, c.scope ≠ o.scope := by simp
    simp only [scanFieldObservation, bind_ok, mapError_ok, FieldObservation.validate_ok, exists_const, okOr_ok,
      hget, reject_ok, not_or, not_not, ne_eq, not_and, Bool.not_eq_false, BTreeSet.mem_collect, hn,
      BTreeSet.insert_fresh, pure_ok]
    refine ⟨fun h => ?_, fun h => ?_⟩
    · obtain ⟨h₁, a, ⟨ha, hs⟩, ⟨h₂, h₃, h₄, h₅, h₆, h₇⟩, h⟩ := h
      exact ⟨⟨⟨h₁, h₂, h₃, h₄, ⟨a, ha, hs, h₇⟩, h₆⟩, h₅⟩, h⟩
    · obtain ⟨⟨⟨h₁, h₂, h₃, h₄, ⟨a, ha, hs, h₇⟩, h₆⟩, h₅⟩, h⟩ := h
      exact ⟨h₁, a, ⟨ha, hs⟩, ⟨h₂, h₃, h₄, h₅, h₆, h₇⟩, h⟩

theorem scanFieldObservations_ok {access : List ResourceAccess} {observations : List (Observation V)}
    (hd : (access.map (·.scope)).Nodup) {fields : List (FieldObservation V)} {r : BTreeSet EffectScope} :
    fields.foldlM (scanFieldObservation account (.collect subjects) behavior
        (AccessScan.after access).scopes (.collect (observations.map (·.scope)))) .new = .ok r ↔
      ((∀ o ∈ fields, o.AcceptedIn account subjects behavior access observations) ∧
        (fields.map (·.scope)).Nodup) ∧ BTreeSet.collect (fields.map (·.scope)) = r := by
  rw [(scanFieldObservation_guarded hd).foldlM_after (b := .new) (fun pre => .collect (pre.map (·.scope))) rfl
    fun pre o => by simp]
  simp only [BTreeSet.mem_collect, each_and, each_forall, each_fresh]

/-! ## The whole state -/

/-- The identities of the subjects a state lists. -/
def State.identities (self : State V) : List Identity := self.subjects.map (·.identity)

def State.validate (self : State V) (account : Identity) (requested : List Identity) (behavior : Behavior) :
    Except String Unit := do
  behavior.validate.mapError fun _ => "invalid completion behavior"
  reject (self.subjects.length > maximumStateItems ∨ self.observations.length > maximumStateItems ∨
    self.access.length > maximumStateItems ∨ self.references.length > maximumStateItems ∨
    self.fieldObservations.length > maximumStateItems) "completion state exceeds limits"
  let subjects := BTreeSet.collect self.identities
  let requested := BTreeSet.collect requested
  reject (subjects.len ≠ self.subjects.length ∨ ¬ requested.isEmpty ∧ subjects ≠ requested ∨
    ∃ subject ∈ self.subjects, subject.role ∉ behavior.subjectRoles) "completion subject coverage mismatch"
  let scan ← self.observations.foldlM (scanObservation account subjects behavior) ⟨.new, .new, .new⟩
  reject (scan.observed ≠ subjects) "missing completion observations"
  discard <| self.references.foldlM (scanReference scan.domains)
    ⟨.new, maximumStateItems, maximumReferenceBytes⟩
  discard <| (boundedJsonSize (.seq (self.fieldObservations.map (·.serialize)))
    maximumFieldObservationBytes).mapError fun _ => "native field observations exceed limits"
  let ⟨scopes, _⟩ ← self.access.foldlM (scanAccess account subjects behavior) ⟨.new, .new⟩
  let completionScopes := BTreeSet.collect (self.observations.map (·.scope))
  discard <| self.fieldObservations.foldlM
    (scanFieldObservation account subjects behavior scopes completionScopes) .new

/-- The limits on a state as a whole. -/
structure State.WithinLimits (s : State V) : Prop where
  subjects : s.subjects.length ≤ maximumStateItems
  observations : s.observations.length ≤ maximumStateItems
  access : s.access.length ≤ maximumStateItems
  references : s.references.length ≤ maximumStateItems
  fieldObservations : s.fieldObservations.length ≤ maximumStateItems
  referenceUnits : (s.references.map (·.units.length)).sum ≤ maximumStateItems
  referenceBytes : (s.references.map (·.bytes)).sum ≤ maximumReferenceBytes
  fieldBytes : (jsonText (.seq (s.fieldObservations.map (·.serialize)))).length ≤ maximumFieldObservationBytes

/-- What the parts of a state are by themselves and to one another. -/
structure State.Coherent (account : Identity) (behavior : Behavior) (s : State V) : Prop where
  identities : s.identities.Nodup
  roles : ∀ subject ∈ s.subjects, subject.role ∈ behavior.subjectRoles
  observations : ∀ o ∈ s.observations, o.AcceptedIn account s.identities behavior
  origins : (s.observations.map (·.originKey)).Nodup
  observed : ∀ i ∈ s.identities, ∃ o ∈ s.observations, o.subject = i
  references : ∀ r ∈ s.references, r.Bound s.observations
  referenceKeys : (s.references.map (·.domainKey)).Nodup
  access : ∀ a ∈ s.access, a.AcceptedIn account s.identities behavior
  scopes : (s.access.map (·.scope)).Nodup
  groups : ∀ a ∈ s.access, ∀ b ∈ s.access, a.native = b.native → a.canonicalGroup = b.canonicalGroup
  fields : ∀ o ∈ s.fieldObservations, o.AcceptedIn account s.identities behavior s.access s.observations
  fieldScopes : (s.fieldObservations.map (·.scope)).Nodup

/-- A state `State::validate` accepts. -/
structure State.Valid (account : Identity) (requested : List Identity) (behavior : Behavior)
    (s : State V) : Prop where
  declared : behavior.Valid
  limits : s.WithinLimits
  coherent : s.Coherent account behavior
  covers : requested ≠ [] → ∀ i, i ∈ s.identities ↔ i ∈ requested

theorem State.validate_ok {s : State V} {requested : List Identity} {u : Unit} :
    s.validate account requested behavior = .ok u ↔ s.Valid account requested behavior := by
  have hobs : (∀ o ∈ s.observations, o.AcceptedIn account s.identities behavior) →
      ((ObservationScan.after s.observations).observed = .collect s.identities ↔
        ∀ i ∈ s.identities, ∃ o ∈ s.observations, o.subject = i) := by
    intro hacc
    rw [ObservationScan.after, BTreeSet.collect_eq_iff]
    simp only [BTreeSet.mem_collect, List.mem_map]
    refine ⟨fun h i hi => (h i).mpr hi, fun h i => ⟨fun hi => ?_, h i⟩⟩
    obtain ⟨o, ho, he⟩ := hi
    exact he ▸ (hacc o ho).listed
  have hcov : ¬ (¬ (BTreeSet.collect requested).isEmpty = true ∧
      BTreeSet.collect s.identities ≠ BTreeSet.collect requested) ↔
      (requested ≠ [] → ∀ i, i ∈ s.identities ↔ i ∈ requested) := by
    rw [not_and, BTreeSet.isEmpty_collect, not_not, BTreeSet.collect_eq_iff]
    simp only [BTreeSet.mem_collect]
  have hroles : ¬ (∃ subject ∈ s.subjects, subject.role ∉ behavior.subjectRoles) ↔
      ∀ subject ∈ s.subjects, subject.role ∈ behavior.subjectRoles := by
    simp only [not_exists, not_and, not_not]
  have hlen : ¬ (BTreeSet.collect s.identities).len ≠ s.subjects.length ↔ s.identities.Nodup := by
    rw [not_not, ← BTreeSet.len_collect, State.identities, List.length_map]
  simp only [validate, bind_ok, mapError_ok, Behavior.validate_ok, exists_const, reject_ok, not_or, gt_iff_lt,
    Nat.not_lt, hroles, hcov, hlen, scanObservations_ok, discard_ok, not_ne_iff,
    discard_boundedJsonSize_ok (show maximumFieldObservationBytes < 2 ^ 64 by decide)]
  refine ⟨?_, fun h => ?_⟩
  · intro h
    obtain ⟨hb, ⟨h₁, h₂, h₃, h₄, h₅⟩, ⟨hn, hc, hr⟩, scan, ⟨⟨hacc, ho⟩, hscan⟩, hseen, ⟨_, hrefs⟩, hbytes,
      ascan, haccess, fieldScopes, hfields⟩ := h
    subst hscan
    obtain ⟨⟨hk, hbound, hunits, hsize⟩, _⟩ := (scanReferences_ok _).mp hrefs
    obtain ⟨⟨ha, hs, hg⟩, hascan⟩ := (scanAccesses_ok hb).mp haccess
    subst hascan
    obtain ⟨⟨hf, hfs⟩, _⟩ := (scanFieldObservations_ok hs).mp hfields
    exact {
      declared := hb
      limits := ⟨h₁, h₂, h₃, h₄, h₅, hunits, hsize, hbytes⟩
      coherent := ⟨hn, hr, hacc, ho, (hobs hacc).mp hseen, hbound, hk, ha, hs, hg, hf, hfs⟩
      covers := hc }
  · have hl := h.limits
    have hc := h.coherent
    have hrefs := (scanReferences_ok s.observations).mpr
      ⟨⟨hc.referenceKeys, hc.references, hl.referenceUnits, hl.referenceBytes⟩, rfl⟩
    have haccess := (scanAccesses_ok h.declared).mpr ⟨⟨hc.access, hc.scopes, hc.groups⟩, rfl⟩
    have hfields := (scanFieldObservations_ok hc.scopes).mpr ⟨⟨hc.fields, hc.fieldScopes⟩, rfl⟩
    exact ⟨h.declared, ⟨hl.subjects, hl.observations, hl.access, hl.references, hl.fieldObservations⟩,
      ⟨hc.identities, h.covers, hc.roles⟩, _, ⟨⟨hc.observations, hc.origins⟩, rfl⟩,
      (hobs hc.observations).mpr hc.observed, ⟨_, hrefs⟩, hl.fieldBytes, _, haccess, _, hfields⟩

/-- **What a completion state must be.** The loops of `State::validate` and
their accumulators come down to conditions that no order of the lists
changes. -/
theorem State.validate_iff (s : State V) (account : Identity) (requested : List Identity) (behavior : Behavior) :
    s.validate account requested behavior = .ok () ↔
      behavior.Valid ∧
      (s.subjects.length ≤ 100000 ∧ s.observations.length ≤ 100000 ∧ s.access.length ≤ 100000 ∧
        s.references.length ≤ 100000 ∧ s.fieldObservations.length ≤ 100000) ∧
      -- subjects
      (s.subjects.map (·.identity)).Nodup ∧
      (∀ subject ∈ s.subjects, subject.role ∈ behavior.subjectRoles) ∧
      (requested ≠ [] → ∀ i, i ∈ s.subjects.map (·.identity) ↔ i ∈ requested) ∧
      -- completion observations
      (∀ o ∈ s.observations, o.Valid ∧ o.account = account ∧ o.subject ∈ s.subjects.map (·.identity) ∧
        o.behaviorRevision = behavior.revision ∧ o.domain.unit ∈ behavior.units) ∧
      (s.observations.map fun o => (o.origin, o.subject, o.field, o.domain.identity)).Nodup ∧
      (∀ subject ∈ s.subjects, ∃ o ∈ s.observations, o.subject = subject.identity) ∧
      -- references
      (s.references.map fun r => (r.subject, r.domain.identity)).Nodup ∧
      (∀ r ∈ s.references,
        (∃ o ∈ s.observations, o.subject = r.subject ∧ o.domain.identity = r.domain.identity) ∧
        ∀ o ∈ s.observations, o.subject = r.subject → o.domain.identity = r.domain.identity →
          o.domain = r.domain) ∧
      (s.references.map (·.units.length)).sum ≤ 100000 ∧
      (s.references.map fun r => (r.units.map fun b => b.reference.utf8ByteSize +
        b.unit.namespaceName.value.utf8ByteSize + b.unit.value.utf8ByteSize).sum).sum ≤ 4 * 1024 * 1024 ∧
      (jsonText (.seq (s.fieldObservations.map (·.serialize)))).length ≤ 4 * 1024 * 1024 ∧
      -- access
      (∀ a ∈ s.access, a.Valid behavior ∧ a.scope.account = account ∧
        a.scope.subject ∈ s.subjects.map (·.identity)) ∧
      (s.access.map (·.scope)).Nodup ∧
      (∀ a ∈ s.access, ∀ b ∈ s.access, a.scope.account = b.scope.account → a.scope.subject = b.scope.subject →
        a.group = b.group → a.canonicalGroup = b.canonicalGroup) ∧
      -- native field observations
      (∀ o ∈ s.fieldObservations, o.Valid ∧ o.scope.account = account ∧
        o.scope.subject ∈ s.subjects.map (·.identity) ∧ o.behaviorRevision = behavior.revision ∧
        (∃ a ∈ s.access, a.scope = o.scope ∧ (o.quality = .complete → a.readable = true)) ∧
        ∀ c ∈ s.observations, EffectScope.mk c.account c.subject c.field ≠ o.scope) ∧
      (s.fieldObservations.map (·.scope)).Nodup := by
  have hgroups : ∀ a b : ResourceAccess, a.native = b.native ↔
      a.scope.account = b.scope.account ∧ a.scope.subject = b.scope.subject ∧ a.group = b.group := by
    simp [ResourceAccess.native]
  rw [validate_ok]
  refine ⟨fun h => ?_, ?_⟩
  · have hl := h.limits
    have hc := h.coherent
    refine ⟨h.declared, ⟨hl.subjects, hl.observations, hl.access, hl.references, hl.fieldObservations⟩,
      hc.identities, hc.roles, h.covers, fun o ho => ?_, hc.origins, fun subject hs => ?_, hc.referenceKeys,
      hc.references, hl.referenceUnits, hl.referenceBytes, hl.fieldBytes, fun a ha => ?_, hc.scopes,
      fun a ha b hb h₁ h₂ h₃ => hc.groups a ha b hb ((hgroups a b).mpr ⟨h₁, h₂, h₃⟩), fun o ho => ?_, hc.fieldScopes⟩
    · have ho := hc.observations o ho
      exact ⟨ho.valid, ho.inAccount, ho.listed, ho.revision, ho.unit⟩
    · exact hc.observed _ (List.mem_map_of_mem hs)
    · have ha := hc.access a ha
      exact ⟨ha.valid, ha.inAccount, ha.listed⟩
    · have ho := hc.fields o ho
      exact ⟨ho.valid, ho.inAccount, ho.listed, ho.revision, ho.readable, ho.native⟩
  · intro h
    obtain ⟨hb, ⟨h₁, h₂, h₃, h₄, h₅⟩, hn, hr, hcov, hobs, horigins, hseen, hkeys, hbound, hunits, hbytes, hjson,
      haccess, hscopes, hgroup, hfields, hfieldScopes⟩ := h
    refine ⟨hb, ⟨h₁, h₂, h₃, h₄, h₅, hunits, hbytes, hjson⟩, ?_, hcov⟩
    refine ⟨hn, hr, fun o ho => ?_, horigins, fun i hi => ?_, hbound, hkeys, fun a ha => ?_, hscopes,
      fun a ha b hb h => ?_, fun o ho => ?_, hfieldScopes⟩
    · obtain ⟨h₁, h₂, h₃, h₄, h₅⟩ := hobs o ho
      exact ⟨h₁, h₂, h₃, h₄, h₅⟩
    · obtain ⟨subject, hs, rfl⟩ := List.mem_map.mp hi
      exact hseen subject hs
    · obtain ⟨h₁, h₂, h₃⟩ := haccess a ha
      exact ⟨h₁, h₂, h₃⟩
    · obtain ⟨h₁, h₂, h₃⟩ := (hgroups a b).mp h
      exact hgroup a ha b hb h₁ h₂ h₃
    · obtain ⟨h₁, h₂, h₃, h₄, h₅, h₆⟩ := hfields o ho
      exact ⟨h₁, h₂, h₃, h₄, h₅, h₆⟩

end

end ProviderSdk
