/-
The completion model (`completion.rs`): names, identities, domains, progress
and observations, with the checks of their constructors.

What a public constructor guarantees is a field of the type it builds, so a
`Name`, an `Identity`, a `Domain` or a `DomainReferences` here is one its
constructor returned. Lengths of strings are in UTF-8 bytes.
-/
import ProviderSdk.Lib.Collections
import ProviderSdk.Serde
import Mathlib.Order.Lattice

namespace ProviderSdk

open Checks Text

def maximumDomainUnits : Nat := 100000
def maximumRevisionBytes : Nat := 4096
def maximumNativeValueBytes : Nat := 65536

inductive ModelError where
  | invalidName
  | invalidIdentity
  | invalidRevision
  | domainTooLarge
  | duplicateUnit
  | unknownUnit
  | invalidReferenceBinding
  | unorderedPrefix
  | openCardinality
  | progressOutOfBounds
  | incompleteAbsence
  | nativeValueTooLarge
  | incompatibleDomain
  deriving DecidableEq

/-! ## Names and identities -/

/-- The test of `Name::new`. The bytes it allows are ASCII, so it is a test
of characters. -/
def nameAccepted (value : String) : Bool :=
  match splitOnce [':'] value.toList with
  | none => false
  | some (before, after) =>
    !(before.isEmpty || after.isEmpty || decide (value.utf8ByteSize > 256) ||
      !value.toList.all fun c => c.isAlphanum || [':', '.', '/', '_', '-'].contains c)

structure Name where
  value : String
  accepted : nameAccepted value = true

def Name.new (value : String) : Except ModelError Name :=
  if h : nameAccepted value = true then .ok ⟨value, h⟩ else .error .invalidName

theorem Name.eq_of_value {a b : Name} (h : a.value = b.value) : a = b := by
  cases a; cases b; simp_all

instance : LinearOrder Name := LinearOrder.lift' Name.value fun _ _ => Name.eq_of_value

/-- A name's own text is a name again. -/
@[simp] theorem Name.new_value (n : Name) : Name.new n.value = .ok n := by
  simp [Name.new, n.accepted]

theorem Name.new_ok {value : String} {n : Name} : Name.new value = .ok n ↔ n.value = value := by
  refine ⟨fun h => ?_, fun h => ?_⟩
  · unfold Name.new at h
    split at h
    · cases h
      rfl
    · cases h
  · rw [← h, Name.new_value]

theorem Name.utf8ByteSize_le (n : Name) : n.value.utf8ByteSize ≤ 256 := by
  have h := n.accepted
  unfold nameAccepted at h
  split at h
  · cases h
  · simp only [Bool.not_eq_true', Bool.or_eq_false_iff, decide_eq_false_iff_not, Nat.not_lt, gt_iff_lt] at h
    exact h.1.2

/-- The test of `Identity::new`. -/
def identityAccepted (value : String) : Bool :=
  !(value == "" || decide (value.utf8ByteSize > 4096) || hasControl value)

structure Identity where
  namespaceName : Name
  value : String
  accepted : identityAccepted value = true

def Identity.new (namespaceName : Name) (value : String) : Except ModelError Identity :=
  if h : identityAccepted value = true then .ok ⟨namespaceName, value, h⟩ else .error .invalidIdentity

theorem Identity.eq_of_parts {a b : Identity} (hn : a.namespaceName = b.namespaceName) (hv : a.value = b.value) :
    a = b := by
  cases a; cases b; simp_all

theorem Identity.utf8ByteSize_le (i : Identity) : i.value.utf8ByteSize ≤ 4096 := by
  have h := i.accepted
  simp only [identityAccepted, Bool.not_eq_true', Bool.or_eq_false_iff, decide_eq_false_iff_not, Nat.not_lt,
    gt_iff_lt] at h
  exact h.1.2

instance : LinearOrder Identity :=
  LinearOrder.lift' (fun i => toLex (i.namespaceName, i.value)) fun a b h => by
    have h' := Prod.mk.inj (toLex.injective h)
    exact Identity.eq_of_parts h'.1 h'.2

@[simp] theorem Identity.new_value (i : Identity) : Identity.new i.namespaceName i.value = .ok i := by
  simp [Identity.new, i.accepted]

theorem Identity.new_ok {n : Name} {value : String} {i : Identity} :
    Identity.new n value = .ok i ↔ i.namespaceName = n ∧ i.value = value := by
  refine ⟨fun h => ?_, fun h => ?_⟩
  · unfold Identity.new at h
    split at h
    · cases h
      exact ⟨rfl, rfl⟩
    · cases h
  · obtain ⟨hn, hv⟩ := h
    rw [← hn, ← hv, Identity.new_value]

def Name.sample : Name := ⟨"sample:name", by decide⟩

def Identity.sample : Identity := ⟨.sample, "sample", by decide⟩

structure Subject where
  identity : Identity
  classifications : BTreeSet Name
  role : Name
  label : String
  deriving DecidableEq

/-! ## Domains -/

inductive Ordering where
  | ordered
  | unordered
  deriving DecidableEq

/-- What `Domain::new` checks, and the order it leaves the units in. -/
structure DomainOk (revision : String) (ordering : Ordering) (units : List Identity) : Prop where
  revisionOk : ¬ (revision = "" ∨ revision.utf8ByteSize > maximumRevisionBytes)
  bounded : units.length ≤ maximumDomainUnits
  distinct : units.Nodup
  sorted : ordering = .unordered → units.Pairwise (· ≤ ·)

structure Domain where
  identity : Identity
  revision : String
  unit : Name
  ordering : Ordering
  units : List Identity
  closed : Bool
  ok : DomainOk revision ordering units
  deriving DecidableEq

/-- The order a domain keeps its units in: as declared, or sorted. -/
def Ordering.arrange (ordering : Ordering) (units : List Identity) : List Identity :=
  if ordering = .unordered then units.insertionSort (· ≤ ·) else units

theorem Ordering.arrange_perm (ordering : Ordering) (units : List Identity) :
    (ordering.arrange units).Perm units := by
  unfold arrange
  split
  · exact List.perm_insertionSort _ _
  · exact .refl _

theorem Ordering.arrange_sorted {ordering : Ordering} {units : List Identity} (h : ordering = .unordered) :
    (ordering.arrange units).Pairwise (· ≤ ·) := by
  rw [arrange, if_pos h]
  exact List.pairwise_insertionSort _ _

def Domain.new (identity : Identity) (revision : String) (unit : Name) (ordering : Ordering)
    (units : List Identity) (closed : Bool) : Except ModelError Domain :=
  if hr : revision = "" ∨ revision.utf8ByteSize > maximumRevisionBytes then .error .invalidRevision
  else if hl : units.length > maximumDomainUnits then .error .domainTooLarge
  else if hd : (BTreeSet.collect units).len ≠ units.length then .error .duplicateUnit
  else
    have hp := ordering.arrange_perm units
    .ok { identity, revision, unit, ordering, units := ordering.arrange units, closed
          ok := { revisionOk := hr
                  bounded := hp.length_eq ▸ Nat.le_of_not_lt hl
                  distinct := hp.nodup_iff.mpr (BTreeSet.len_collect.mp (not_not.mp hd))
                  sorted := Ordering.arrange_sorted } }

theorem Domain.new_ok {identity : Identity} {revision : String} {unit : Name} {ordering : Ordering}
    {units : List Identity} {closed : Bool} {d : Domain} :
    Domain.new identity revision unit ordering units closed = .ok d ↔
      ¬ (revision = "" ∨ revision.utf8ByteSize > maximumRevisionBytes) ∧
      units.length ≤ maximumDomainUnits ∧ units.Nodup ∧ d.identity = identity ∧ d.revision = revision ∧
      d.unit = unit ∧ d.ordering = ordering ∧ d.units = ordering.arrange units ∧ d.closed = closed := by
  unfold Domain.new
  split
  · simp_all
  split
  · simp only [reduceCtorEq, false_iff]
    intro h; omega
  split
  · rename_i hd
    simp only [ne_eq, BTreeSet.len_collect] at hd
    simp [hd]
  · rename_i hr hl hd
    simp only [ne_eq, not_not, BTreeSet.len_collect] at hd
    simp only [Except.ok.injEq, hr, not_false_eq_true, Nat.le_of_not_lt hl, hd, true_and]
    refine ⟨fun h => ?_, fun h => ?_⟩
    · subst h
      simp
    · obtain ⟨h₁, h₂, h₃, h₄, h₅, h₆⟩ := h
      cases d
      simp_all

/-- A domain rebuilt from its parts is itself. -/
theorem Domain.new_parts (d : Domain) :
    Domain.new d.identity d.revision d.unit d.ordering d.units d.closed = .ok d := by
  refine Domain.new_ok.mpr ⟨d.ok.revisionOk, d.ok.bounded, d.ok.distinct, rfl, rfl, rfl, rfl, ?_, rfl⟩
  unfold Ordering.arrange
  split
  · exact ((d.ok.sorted ‹_›).insertionSort_eq).symm
  · rfl

/-- An unordered domain does not depend on the order its units are given in. -/
theorem Domain.new_perm {identity : Identity} {revision : String} {unit : Name} {units units' : List Identity}
    {closed : Bool} {d : Domain} (hp : units.Perm units')
    (h : Domain.new identity revision unit .unordered units closed = .ok d) :
    Domain.new identity revision unit .unordered units' closed = .ok d := by
  obtain ⟨hr, hl, hd, hi, hv, hu, ho, hs, hc⟩ := Domain.new_ok.mp h
  refine Domain.new_ok.mpr ⟨hr, hp.length_eq ▸ hl, hp.nodup_iff.mp hd, hi, hv, hu, ho, ?_, hc⟩
  rw [hs]
  exact (((Ordering.arrange_perm _ _).trans hp).trans (Ordering.arrange_perm _ _).symm).eq_of_pairwise'
    (Ordering.arrange_sorted rfl) (Ordering.arrange_sorted rfl)

def Domain.validateUnits (self : Domain) (units : BTreeSet Identity) : Except ModelError Unit :=
  let known := BTreeSet.collect self.units
  reject (¬ ∀ unit ∈ units.toList, unit ∈ known) .unknownUnit

@[simp] theorem Domain.validateUnits_ok {d : Domain} {units : BTreeSet Identity} {u : Unit} :
    d.validateUnits units = .ok u ↔ ∀ unit ∈ units, unit ∈ d.units := by
  simp only [validateUnits, reject_ok, not_not, BTreeSet.mem_collect]
  exact .rfl

/-! ## Progress -/

inductive Progress where
  | items (completed : BTreeSet Identity)
  | prefixCount (completed : UInt32)
  | cardinality (completed : UInt32)
  deriving DecidableEq

/-- `mem::discriminant`: which of the three representations a progress is. -/
inductive ProgressKind where
  | items
  | prefixCount
  | cardinality
  deriving DecidableEq

def Progress.kind : Progress → ProgressKind
  | .items _ => .items
  | .prefixCount _ => .prefixCount
  | .cardinality _ => .cardinality

def Progress.validate (self : Progress) (domain : Domain) : Except ModelError Unit :=
  match self with
  | .items completed => domain.validateUnits completed
  | .prefixCount completed => do
    reject (domain.ordering ≠ .ordered) .unorderedPrefix
    reject (completed.toNat > domain.units.length) .progressOutOfBounds
  | .cardinality completed => do
    reject (domain.closed = false) .openCardinality
    reject (completed.toNat > domain.units.length) .progressOutOfBounds

/-- A progress `Progress::validate` accepts in `domain`. -/
def Progress.Valid (domain : Domain) : Progress → Prop
  | .items completed => ∀ unit ∈ completed, unit ∈ domain.units
  | .prefixCount completed => domain.ordering = .ordered ∧ completed.toNat ≤ domain.units.length
  | .cardinality completed => domain.closed = true ∧ completed.toNat ≤ domain.units.length

@[simp] theorem Progress.validate_ok {p : Progress} {d : Domain} {u : Unit} :
    p.validate d = .ok u ↔ p.Valid d := by
  cases p <;> simp [Progress.validate, Progress.Valid]

inductive ReadQuality where
  | complete
  | partialRead
  | unreadable
  | stale
  deriving DecidableEq

inductive Presence where
  | present (progress : Progress)
  | cleared
  | missing
  | meaningfulAbsence
  deriving DecidableEq

/-! ## References -/

structure UnitReference where
  unit : Identity
  reference : String
  deriving DecidableEq

/-- The bytes a binding counts against the reference budgets. -/
def UnitReference.bytes (binding : UnitReference) : Nat :=
  binding.reference.utf8ByteSize + binding.unit.namespaceName.value.utf8ByteSize +
    binding.unit.value.utf8ByteSize

/-- The accumulators of the loop in `DomainReferences::new`. -/
structure BindingScan where
  bytes : Nat
  identities : BTreeSet Identity
  references : BTreeSet String

def BindingScan.start : BindingScan := ⟨0, .new, .new⟩

def BindingScan.step (scan : BindingScan) (binding : UnitReference) : Except ModelError BindingScan := do
  let bytes ← okOr ((checkedAdd scan.bytes binding.bytes).filter (· ≤ 4 * 1024 * 1024))
    .invalidReferenceBinding
  let (identities, freshUnit) := scan.identities.insert binding.unit
  let (references, freshReference) := scan.references.insert binding.reference
  reject (binding.reference = "" ∨ binding.reference.utf8ByteSize > 4096 ∨
    hasControl binding.reference = true ∨ ¬ freshUnit ∨ ¬ freshReference) .invalidReferenceBinding
  pure { bytes, identities, references }

/-- A reference `DomainReferences::new` accepts by itself. -/
def ReferenceOk (reference : String) : Prop :=
  reference ≠ "" ∧ reference.utf8ByteSize ≤ 4096 ∧ hasControl reference = false

/-- The scan after a list of bindings. -/
def BindingScan.after (bindings : List UnitReference) : BindingScan where
  bytes := (bindings.map (·.bytes)).sum
  identities := .collect (bindings.map (·.unit))
  references := .collect (bindings.map (·.reference))

theorem BindingScan.step_guarded : Guarded (ε := ModelError) BindingScan.step
    (fun scan b => scan.bytes + b.bytes ≤ 4 * 1024 * 1024 ∧ ReferenceOk b.reference ∧
      b.unit ∉ scan.identities ∧ b.reference ∉ scan.references)
    (fun scan b => ⟨scan.bytes + b.bytes, (scan.identities.insert b.unit).1,
      (scan.references.insert b.reference).1⟩) where
  ok_iff {scan b r} := by
    simp only [step, bind_ok, okOr_ok, checkedAdd_filter_eq_some (show 4 * 1024 * 1024 < 2 ^ 64 by decide),
      reject_ok, pure_ok, BTreeSet.insert_fresh, not_or, not_not, exists_const, ReferenceOk, Nat.not_lt,
      Bool.not_eq_true, gt_iff_lt, ne_eq]
    refine ⟨fun h => ?_, fun h => ?_⟩
    · obtain ⟨_, ⟨h₁, rfl⟩, ⟨h₂, h₃, h₄, h₅, h₆⟩, hr⟩ := h
      exact ⟨⟨h₁, ⟨h₂, h₃, h₄⟩, h₅, h₆⟩, hr⟩
    · obtain ⟨⟨h₁, ⟨h₂, h₃, h₄⟩, h₅, h₆⟩, hr⟩ := h
      exact ⟨_, ⟨h₁, rfl⟩, ⟨h₂, h₃, h₄, h₅, h₆⟩, hr⟩

theorem BindingScan.foldlM_step {bindings : List UnitReference} {scan : BindingScan} :
    bindings.foldlM BindingScan.step .start = .ok scan ↔
      ((bindings.map (·.bytes)).sum ≤ 4 * 1024 * 1024 ∧ (∀ b ∈ bindings, ReferenceOk b.reference) ∧
        (bindings.map (·.unit)).Nodup ∧ (bindings.map (·.reference)).Nodup) ∧
      BindingScan.after bindings = scan := by
  rw [step_guarded.foldlM_after (b := start) after rfl fun pre x => by simp [after]]
  simp only [after, BTreeSet.mem_collect, each_and, each_budget, each_forall, each_fresh]

/-- What `DomainReferences::new` checks, and the order it leaves the
bindings in: unit to reference is a bijection. -/
structure DomainReferencesOk (domain : Domain) (units : List UnitReference) : Prop where
  covers : (units.map (·.unit)).Perm domain.units
  distinct : (units.map (·.reference)).Nodup
  references : ∀ b ∈ units, ReferenceOk b.reference
  bounded : (units.map (·.bytes)).sum ≤ 4 * 1024 * 1024
  sorted : units.Pairwise fun left right => left.unit ≤ right.unit

structure DomainReferences where
  subject : Identity
  domain : Domain
  units : List UnitReference
  ok : DomainReferencesOk domain units
  deriving DecidableEq

/-- `units.sort_by(|left, right| left.unit.cmp(&right.unit))`. -/
def sortByUnit (units : List UnitReference) : List UnitReference :=
  units.insertionSort fun left right => left.unit ≤ right.unit

theorem sortByUnit_perm (units : List UnitReference) : (sortByUnit units).Perm units :=
  List.perm_insertionSort _ _

theorem sortByUnit_sorted (units : List UnitReference) :
    (sortByUnit units).Pairwise fun left right => left.unit ≤ right.unit := by
  have : Std.Total fun left right : UnitReference => left.unit ≤ right.unit := ⟨fun _ _ => le_total _ _⟩
  have : IsTrans UnitReference fun left right => left.unit ≤ right.unit := ⟨fun _ _ _ => le_trans⟩
  exact List.pairwise_insertionSort _ _

/-- Sorting by unit forgets the order of bindings with distinct units. -/
theorem sortByUnit_eq {units units' : List UnitReference} (hd : (units'.map (·.unit)).Nodup)
    (hp : units.Perm units') : sortByUnit units = sortByUnit units' := by
  have hp' := ((sortByUnit_perm units).trans hp).trans (sortByUnit_perm units').symm
  refine hp'.eq_of_pairwise (fun a b ha hb hab hba => ?_) (sortByUnit_sorted _) (sortByUnit_sorted _)
  have ha' : a ∈ units' := (sortByUnit_perm units').mem_iff.mp (hp'.mem_iff.mp ha)
  have hb' : b ∈ units' := (sortByUnit_perm units').mem_iff.mp hb
  exact List.inj_on_of_nodup_map hd ha' hb' (le_antisymm hab hba)

/-- What the checks on a binding list say of its sorted form. -/
theorem DomainReferencesOk.of_scan {domain : Domain} {units : List UnitReference} {scan : BindingScan}
    (hs : units.foldlM BindingScan.step .start = .ok scan)
    (hi : scan.identities = .collect domain.units) : DomainReferencesOk domain (sortByUnit units) := by
  obtain ⟨⟨hb, hr, hu, hd⟩, rfl⟩ := BindingScan.foldlM_step.mp hs
  have hp := sortByUnit_perm units
  have hmem : ∀ i, i ∈ units.map (·.unit) ↔ i ∈ domain.units := fun i => by
    rw [← BTreeSet.mem_collect (l := domain.units), ← hi, BindingScan.after, BTreeSet.mem_collect]
  exact {
    covers := (hp.map _).trans ((List.perm_ext_iff_of_nodup hu domain.ok.distinct).mpr hmem)
    distinct := (hp.map _).nodup_iff.mpr hd
    references := fun b h => hr b (hp.mem_iff.mp h)
    bounded := (hp.map (·.bytes)).sum_eq ▸ hb
    sorted := sortByUnit_sorted units }

def DomainReferences.new (subject : Identity) (domain : Domain) (units : List UnitReference) :
    Except ModelError DomainReferences :=
  if units.length ≠ domain.units.length then .error .invalidReferenceBinding
  else match hs : units.foldlM BindingScan.step .start with
    | .error e => .error e
    | .ok scan =>
      if hi : scan.identities = .collect domain.units then
        .ok { subject, domain, units := sortByUnit units, ok := .of_scan hs hi }
      else .error .invalidReferenceBinding

theorem DomainReferences.new_ok {subject : Identity} {domain : Domain} {units : List UnitReference}
    {r : DomainReferences} : DomainReferences.new subject domain units = .ok r ↔
      (units.map (·.unit)).Perm domain.units ∧ (units.map (·.reference)).Nodup ∧
      (∀ b ∈ units, ReferenceOk b.reference) ∧ (units.map (·.bytes)).sum ≤ 4 * 1024 * 1024 ∧
      r.subject = subject ∧ r.domain = domain ∧ r.units = sortByUnit units := by
  unfold DomainReferences.new
  split
  · rename_i hl
    refine ⟨fun h => (nomatch h), fun h => absurd ?_ hl⟩
    simpa using h.1.length_eq
  split
  · rename_i e hs
    refine ⟨fun h => (nomatch h), fun h => ?_⟩
    obtain ⟨hc, hd, hr, hb, _⟩ := h
    have := BindingScan.foldlM_step.mpr ⟨⟨hb, hr, hc.nodup_iff.mpr domain.ok.distinct, hd⟩, rfl⟩
    rw [hs] at this
    cases this
  rename_i scan hs
  obtain ⟨⟨hb, hr, hu, hd⟩, hscan⟩ := BindingScan.foldlM_step.mp hs
  split
  · rename_i hi
    have hok := DomainReferencesOk.of_scan hs hi
    have hc := ((sortByUnit_perm units).symm.map (·.unit)).trans hok.covers
    simp only [Except.ok.injEq, hc, hd, hb, true_and]
    refine ⟨fun h => ?_, fun h => ?_⟩
    · subst h
      exact ⟨hr, rfl, rfl, rfl⟩
    · obtain ⟨_, h₁, h₂, h₃⟩ := h
      cases r
      simp_all
  · rename_i hi
    refine ⟨fun h => (nomatch h), fun h => absurd ?_ hi⟩
    rw [← hscan]
    exact BTreeSet.collect_perm h.1

/-- References rebuilt from their parts are themselves. -/
theorem DomainReferences.new_parts (r : DomainReferences) :
    DomainReferences.new r.subject r.domain r.units = .ok r := by
  have hs : sortByUnit r.units = r.units := r.ok.sorted.insertionSort_eq
  exact new_ok.mpr ⟨r.ok.covers, r.ok.distinct, r.ok.references, r.ok.bounded, rfl, rfl, hs.symm⟩

/-- References do not depend on the order their bindings are given in. -/
theorem DomainReferences.new_perm {subject : Identity} {domain : Domain} {units units' : List UnitReference}
    {r : DomainReferences} (hp : units.Perm units') (h : DomainReferences.new subject domain units = .ok r) :
    DomainReferences.new subject domain units' = .ok r := by
  obtain ⟨hc, hd, hr, hb, hs, hm, hu⟩ := new_ok.mp h
  refine new_ok.mpr ⟨(hp.symm.map _).trans hc, (hp.map _).nodup_iff.mp hd, fun b h => hr b (hp.mem_iff.mpr h),
    (hp.map (·.bytes)).sum_eq ▸ hb, hs, hm, ?_⟩
  rw [hu]
  exact sortByUnit_eq ((hp.map _).nodup_iff.mp (hc.nodup_iff.mpr domain.ok.distinct)) hp

/-! ## Observations -/

structure Observation (V : Type) where
  origin : Identity
  account : Identity
  subject : Identity
  field : Name
  behaviorRevision : String
  remoteRevision : Option String
  acquiredAtMilliseconds : Int64
  domain : Domain
  quality : ReadQuality
  presence : Presence
  nativeValue : V

variable {V : Type} [SerdeJson V]

/-- A revision `Observation::validate` rejects. -/
def revisionOutOfBounds (revision : String) : Bool :=
  revision == "" || decide (revision.utf8ByteSize > maximumRevisionBytes)

def Observation.validate (self : Observation V) : Except ModelError Unit := do
  reject (revisionOutOfBounds self.behaviorRevision ∨ self.remoteRevision.any revisionOutOfBounds)
    .invalidRevision
  (match self.presence with
    | .present progress => progress.validate self.domain
    | _ => pure ())
  reject (self.presence = .meaningfulAbsence ∧ self.quality ≠ .complete) .incompleteAbsence
  discard <| (boundedJsonSize (.value self.nativeValue) maximumNativeValueBytes).mapError
    fun _ => .nativeValueTooLarge

/-- An observation `Observation::validate` accepts. -/
structure Observation.Valid (o : Observation V) : Prop where
  behaviorRevision : o.behaviorRevision ≠ "" ∧ o.behaviorRevision.utf8ByteSize ≤ maximumRevisionBytes
  remoteRevision : ∀ revision, o.remoteRevision = some revision →
    revision ≠ "" ∧ revision.utf8ByteSize ≤ maximumRevisionBytes
  progress : ∀ progress, o.presence = .present progress → progress.Valid o.domain
  absence : o.presence = .meaningfulAbsence → o.quality = .complete
  nativeValue : (jsonText (.value o.nativeValue)).length ≤ maximumNativeValueBytes

theorem revisionOutOfBounds_iff {revision : String} : ¬ revisionOutOfBounds revision = true ↔
    revision ≠ "" ∧ revision.utf8ByteSize ≤ maximumRevisionBytes := by
  simp [revisionOutOfBounds]

/-- A size check succeeds exactly when the text fits. -/
theorem discard_boundedJsonSize_ok {ε : Type} {value : Serialize V} {limit : Nat} {e : JsonError → ε}
    {u : Unit} (hl : limit < 2 ^ 64) :
    discard ((boundedJsonSize value limit).mapError e) = .ok u ↔ (jsonText value).length ≤ limit := by
  simp only [discard, map_const, Function.comp_apply, map_ok, mapError_ok, boundedJsonSize_ok hl]
  refine ⟨fun h => ?_, fun h => ?_⟩
  · obtain ⟨_, h, _⟩ := h
    exact h.1
  · exact ⟨_, ⟨h, rfl⟩, trivial⟩

@[simp] theorem Observation.validate_ok {o : Observation V} {u : Unit} : o.validate = .ok u ↔ o.Valid := by
  have hp : (match o.presence with
      | .present progress => progress.validate o.domain
      | _ => pure ()) = .ok () ↔ ∀ progress, o.presence = .present progress → progress.Valid o.domain := by
    cases o.presence <;> simp
  simp only [validate, bind_ok, reject_ok, exists_const, hp, discard_boundedJsonSize_ok
    (show maximumNativeValueBytes < 2 ^ 64 by decide), not_or, not_and, ne_eq, not_not,
    revisionOutOfBounds_iff, Option.any_eq_true, not_exists]
  refine ⟨fun h => ?_, fun h => ?_⟩
  · obtain ⟨⟨h₁, h₂⟩, h₃, h₄, h₅⟩ := h
    exact ⟨h₁, h₂, h₃, h₄, h₅⟩
  · exact ⟨⟨h.1, h.2⟩, h.3, h.4, h.5⟩

end ProviderSdk
