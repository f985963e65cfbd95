/-
The partial operations of the public validators: an index into a map, an
`expect` on a key, an `unreachable!` branch, a sum in `usize`.

The models return `Fault.panic` where one of them would panic. Each is kept
from it by a check made elsewhere, and the lemmas here say which.
-/
import ProviderSdk.AttemptOutcome
import ProviderSdk.CompletionState
import ProviderSdk.ConnectionSetup
import ProviderSdk.WriteOutcome

namespace ProviderSdk

open Checks Text V1

/-! ## Keys of a snapshot -/

/-- The key of an account is there once its snapshot was checked. -/
theorem scanAccount_failsIn {keys : HashSet Key} {account : AccountSnapshot} :
    FailsIn (· ≠ .panic) (scanAccount keys account) := by
  refine .bind .fallible fun _ h => ?_
  obtain ⟨k, hk, _⟩ := (accountSnapshot_ok.mp (fallible_ok.mp h)).key
  rw [hk]
  exact .bind .ok fun _ _ => .bind (.reject fun _ => nofun) fun _ _ => .pure

theorem openConnectionResponse_failsIn {response : OpenConnectionResponse} :
    FailsIn (· ≠ .panic) (openConnectionResponse response) := by
  unfold openConnectionResponse
  split
  · exact .discard (.foldlM fun _ _ _ => scanAccount_failsIn)
  · exact .fallible
  · exact .throw nofun

section

variable [Prost]

/-- Both keys of a source are there once its snapshot was checked. -/
theorem scanSource_failsIn {accounts keys : HashSet Key} {source : SourceSnapshot} :
    FailsIn (· ≠ .panic) (scanSource accounts keys source) := by
  refine .bind .fallible fun _ h => ?_
  have hw := sourceSnapshot_ok.mp (fallible_ok.mp h)
  obtain ⟨a, ha, _⟩ := hw.accountKey
  obtain ⟨k, hk, _⟩ := hw.key
  rw [ha, hk]
  exact .bind .ok fun _ _ => .bind (.reject fun _ => nofun) fun _ _ => .bind .ok fun _ _ =>
    .bind (.reject fun _ => nofun) fun _ _ => .pure

theorem discoverSourcesResponse_failsIn {accountKeys : List Key} {response : DiscoverSourcesResponse} :
    FailsIn (· ≠ .panic) (discoverSourcesResponse accountKeys response) := by
  unfold discoverSourcesResponse
  split
  · exact .discard (.foldlM fun _ _ _ => scanSource_failsIn)
  · exact .fallible
  · exact .throw nofun

end

/-! ## Branches a write does not reach -/

/-- Only the unspecified mode panics. -/
theorem checkPrecondition_failsIn {mode : TargetedStateWritePreconditionMode} {precondition : List UInt8}
    (h : mode ≠ .unspecified) : FailsIn (· ≠ .panic) (checkPrecondition mode precondition) := by
  cases mode with
  | unspecified => exact absurd rfl h
  | providerToken => exact .reject fun _ => nofun
  | hostRecheckOnly => exact .reject fun _ => nofun

theorem expectedMembershipEffect_failsIn {status : TargetedStateWriteStatus} {membership : SourceMembership}
    (h : status ≠ .unspecified) : FailsIn (· ≠ .panic) (expectedMembershipEffect status membership) := by
  cases status with
  | unspecified => exact absurd rfl h
  | _ => exact .pure

section

variable [Prost]

/-- The mode a request is checked under is that of a capability which passed
its own check, and so is specified. -/
theorem targetedStateWriteRequest_failsIn {request : WriteTargetedStateRequest}
    {capability : TargetedStateWriteCapability} :
    FailsIn (· ≠ .panic) (targetedStateWriteRequest request capability) := by
  refine .bind .fallible fun parts h => .bind (checkPrecondition_failsIn ?_) fun _ _ => .fallible
  simp only [fallible_ok, bind_ok, okOr_ok, reject_ok, key_ok, validateSubject_ok, targetedStateWriteCapability_ok,
    exists_const, pure_ok] at h
  obtain ⟨hcapability, _, k, _, _, s, _, _, _, m, _, _, mode', hmode', he⟩ := h
  obtain ⟨mode, hmode, hspecified⟩ := hcapability.preconditionMode
  rw [hmode] at hmode'
  cases hmode'
  cases he
  exact hspecified

/-- The status of a response stands in the table of combinations, which has
no unspecified one. -/
theorem targetedStateWriteResponse_failsIn {request : WriteTargetedStateRequest}
    {capability : TargetedStateWriteCapability} {response : WriteTargetedStateResponse} :
    FailsIn (· ≠ .panic) (targetedStateWriteResponse request capability response) := by
  refine .bind targetedStateWriteRequest_failsIn fun _ _ => .bind .fallible fun parts h =>
    .bind (expectedMembershipEffect_failsIn ?_) fun _ _ => .fallible
  simp only [fallible_ok, bind_ok, okOr_ok, reject_ok, not_not, exists_const, pure_ok] at h
  obtain ⟨_, _, status, _, certainty, _, retry, _, hcombination, _, _, _, _, _, _, effect, _, membership, _, he⟩ := h
  cases he
  exact validCombination_specified hcombination

end

/-! ## Sums of lengths -/

/-- The bytes of a binding as they are added, in `usize`. -/
def UnitReference.bytesUsize {ε : Type} (binding : UnitReference) : Except (Fault ε) Nat := do
  let bytes ← usizeAdd binding.reference.utf8ByteSize binding.unit.namespaceName.value.utf8ByteSize
  usizeAdd bytes binding.unit.value.utf8ByteSize

/-- A sum that does not overflow is the sum of the lengths. -/
theorem UnitReference.bytesUsize_ok {ε : Type} {binding : UnitReference} {n : Nat} :
    binding.bytesUsize = (.ok n : Except (Fault ε) Nat) ↔ binding.bytes < 2 ^ 64 ∧ binding.bytes = n := by
  simp only [bytesUsize, bytes, bind_ok, usizeAdd_ok]
  refine ⟨fun h => ?_, fun h => ?_⟩
  · obtain ⟨_, ⟨_, rfl⟩, h⟩ := h
    exact h
  · exact ⟨_, ⟨by omega, rfl⟩, h⟩

/-- A name and an identity's value are bounded where they are built, so only
the reference can be long, and no string has half as many bytes as `usize`
counts. -/
theorem UnitReference.bytesUsize_eq {ε : Type} {binding : UnitReference}
    (h : binding.reference.utf8ByteSize < 2 ^ 63) :
    binding.bytesUsize = (.ok binding.bytes : Except (Fault ε) Nat) := by
  have hn := binding.unit.namespaceName.utf8ByteSize_le
  have hv := binding.unit.utf8ByteSize_le
  refine bytesUsize_ok.mpr ⟨?_, rfl⟩
  rw [bytes]
  omega

/-- `BindingScan.step`, with the sum of its lengths in `usize`. -/
def BindingScan.stepUsize (scan : BindingScan) (binding : UnitReference) :
    Except (Fault ModelError) BindingScan := do
  let size ← binding.bytesUsize
  let bytes ← okOr ((checkedAdd scan.bytes size).filter (· ≤ 4 * 1024 * 1024)) (.error .invalidReferenceBinding)
  let (identities, freshUnit) := scan.identities.insert binding.unit
  let (references, freshReference) := scan.references.insert binding.reference
  reject (binding.reference = "" ∨ binding.reference.utf8ByteSize > 4096 ∨
    hasControl binding.reference = true ∨ ¬ freshUnit ∨ ¬ freshReference) (.error .invalidReferenceBinding)
  pure { bytes, identities, references }

theorem BindingScan.stepUsize_eq {scan : BindingScan} {binding : UnitReference}
    (h : binding.bytesUsize = (.ok binding.bytes : Except (Fault ModelError) Nat)) :
    scan.stepUsize binding = fallible (scan.step binding) := by
  simp only [step, stepUsize, h, fallible_bind, fallible_okOr, fallible_reject, fallible_pure]
  rfl

/-- What the loop of `DomainReferences::new` accepts without an overflow. -/
theorem BindingScan.foldlM_stepUsize {bindings : List UnitReference} {scan : BindingScan}
    (h : bindings.foldlM BindingScan.stepUsize .start = .ok scan) :
    bindings.foldlM BindingScan.step .start = .ok scan := by
  refine foldlM_ok_mono (fun scan binding r hr => ?_) h
  -- a step that went past the sum had one
  obtain ⟨n, hn, _⟩ := bind_ok.mp hr
  have hsum : binding.bytesUsize = (.ok binding.bytes : Except (Fault ModelError) Nat) :=
    UnitReference.bytesUsize_ok.mpr ⟨(UnitReference.bytesUsize_ok.mp hn).1, rfl⟩
  rw [stepUsize_eq hsum, fallible_ok] at hr
  exact hr

/-- `DomainReferences::new`, with the sums in `usize`. -/
def DomainReferences.newUsize (subject : Identity) (domain : Domain) (units : List UnitReference) :
    Except (Fault ModelError) DomainReferences :=
  if units.length ≠ domain.units.length then .error (.error .invalidReferenceBinding)
  else match hs : units.foldlM BindingScan.stepUsize .start with
    | .error e => .error e
    | .ok scan =>
      if hi : scan.identities = .collect domain.units then
        .ok { subject, domain, units := sortByUnit units, ok := .of_scan (BindingScan.foldlM_stepUsize hs) hi }
      else .error (.error .invalidReferenceBinding)

/-- The body of the loop over a reference's bindings in `State::validate`. -/
def scanUnitUsize (remainingBytes : Nat) (unit : UnitReference) : Except (Fault String) Nat := do
  okOr (checkedSub remainingBytes (← unit.bytesUsize)) (.error "completion references exceed limits")

def scanReferenceUsize (domains : DomainMap) (scan : ReferenceScan) (binding : DomainReferences) :
    Except (Fault String) ReferenceScan := do
  let (references, fresh) := scan.references.insert binding.domainKey
  reject (¬ fresh ∨ (domains.get binding.domainKey).join ≠ some binding.domain)
    (.error "completion reference domain mismatch")
  let remainingUnits ← okOr (checkedSub scan.remainingUnits binding.units.length)
    (.error "completion references exceed limits")
  let remainingBytes ← binding.units.foldlM scanUnitUsize scan.remainingBytes
  pure { references, remainingUnits, remainingBytes }

variable {V : Type} [SerdeJson V]

/-- `State::validate`, with the sums in `usize`. -/
def State.validateUsize (self : State V) (account : Identity) (requested : List Identity) (behavior : Behavior) :
    Except (Fault String) Unit := do
  let subjects := BTreeSet.collect self.identities
  let scan ← fallible do
    behavior.validate.mapError fun _ => "invalid completion behavior"
    reject (self.subjects.length > maximumStateItems ∨ self.observations.length > maximumStateItems ∨
      self.access.length > maximumStateItems ∨ self.references.length > maximumStateItems ∨
      self.fieldObservations.length > maximumStateItems) "completion state exceeds limits"
    let requested := BTreeSet.collect requested
    reject (subjects.len ≠ self.subjects.length ∨ ¬ requested.isEmpty ∧ subjects ≠ requested ∨
      ∃ subject ∈ self.subjects, subject.role ∉ behavior.subjectRoles) "completion subject coverage mismatch"
    let scan ← self.observations.foldlM (scanObservation account subjects behavior) ⟨.new, .new, .new⟩
    reject (scan.observed ≠ subjects) "missing completion observations"
    pure scan
  discard <| self.references.foldlM (scanReferenceUsize scan.domains)
    ⟨.new, maximumStateItems, maximumReferenceBytes⟩
  fallible do
    discard <| (boundedJsonSize (.seq (self.fieldObservations.map (·.serialize)))
      maximumFieldObservationBytes).mapError fun _ => "native field observations exceed limits"
    let ⟨scopes, _⟩ ← self.access.foldlM (scanAccess account subjects behavior) ⟨.new, .new⟩
    let completionScopes := BTreeSet.collect (self.observations.map (·.scope))
    discard <| self.fieldObservations.foldlM
      (scanFieldObservation account subjects behavior scopes completionScopes) .new

/-- What is left of `DomainReferences::new` after its loop. -/
theorem DomainReferences.new_scan {subject : Identity} {domain : Domain} {units : List UnitReference}
    {scan : BindingScan} (hl : units.length = domain.units.length)
    (hs : units.foldlM BindingScan.step .start = .ok scan) :
    DomainReferences.new subject domain units =
      if hi : scan.identities = .collect domain.units then
        .ok { subject, domain, units := sortByUnit units, ok := .of_scan hs hi }
      else .error .invalidReferenceBinding := by
  unfold DomainReferences.new
  rw [if_neg (not_not.mpr hl)]
  split
  · rename_i e he
    rw [hs] at he
    cases he
  · rename_i scan' hs'
    rw [hs] at hs'
    cases hs'
    rfl

theorem DomainReferences.newUsize_eq {subject : Identity} {domain : Domain} {units : List UnitReference}
    (h : ∀ binding ∈ units, binding.reference.utf8ByteSize < 2 ^ 63) :
    DomainReferences.newUsize subject domain units = fallible (DomainReferences.new subject domain units) := by
  have hloop : units.foldlM BindingScan.stepUsize .start = fallible (units.foldlM BindingScan.step .start) :=
    foldlM_fallible fun _ binding hb => BindingScan.stepUsize_eq (UnitReference.bytesUsize_eq (h binding hb))
  unfold DomainReferences.newUsize
  by_cases hl : units.length ≠ domain.units.length
  · rw [if_pos hl, DomainReferences.new, if_pos hl]
    rfl
  rw [if_neg hl]
  split
  · rename_i e he
    rw [hloop] at he
    rw [DomainReferences.new, if_neg hl]
    split
    · rename_i e' he'
      rw [he'] at he
      cases he
      rfl
    · rename_i scan hs
      rw [hs] at he
      cases he
  · rename_i scan hs
    rw [DomainReferences.new_scan (not_not.mp hl) (BindingScan.foldlM_stepUsize hs)]
    split <;> rfl

/-- The bindings a state holds were bounded when they were built. -/
theorem scanReferenceUsize_eq {domains : DomainMap} {scan : ReferenceScan} {binding : DomainReferences} :
    scanReferenceUsize domains scan binding = fallible (scanReference domains scan binding) := by
  have hunit : ∀ remaining, ∀ unit ∈ binding.units,
      scanUnitUsize remaining unit = fallible (scanUnit remaining unit) := fun remaining unit hu => by
    have hr := (binding.ok.references unit hu).2.1
    have hsum : unit.bytesUsize = (.ok unit.bytes : Except (Fault String) Nat) :=
      UnitReference.bytesUsize_eq (by omega)
    rw [scanUnitUsize, hsum, scanUnit, fallible_okOr]
    rfl
  simp only [scanReference, scanReferenceUsize, foldlM_fallible hunit, fallible_bind, fallible_okOr, fallible_reject,
    fallible_pure]

theorem State.validateUsize_eq {state : State V} {account : Identity} {requested : List Identity}
    {behavior : Behavior} :
    state.validateUsize account requested behavior = fallible (state.validate account requested behavior) := by
  have hloop : ∀ domains scan, state.references.foldlM (scanReferenceUsize domains) scan =
      fallible (state.references.foldlM (scanReference domains) scan) :=
    fun domains scan => foldlM_fallible fun _ _ _ => scanReferenceUsize_eq
  simp only [State.validateUsize, State.validate, hloop, fallible_bind, fallible_discard, fallible_pure, bind_assoc,
    pure_bind]

/-- **The public validators do not panic.** Whatever they are given: an
outcome for an operation that was never validated, snapshots without keys,
enum fields of any value, references of any length a string can have. -/
theorem validators_no_panic [Prost] :
    (∀ (operation : PreparedOperation V) (attempt : Identity) (previous : Option AttemptOutcome)
      (current : AttemptOutcome), validateAttemptOutcome operation attempt previous current ≠ .error .panic) ∧
    (∀ response, openConnectionResponse response ≠ .error .panic) ∧
    (∀ accountKeys response, discoverSourcesResponse accountKeys response ≠ .error .panic) ∧
    (∀ request capability, targetedStateWriteRequest request capability ≠ .error .panic) ∧
    (∀ request capability response, targetedStateWriteResponse request capability response ≠ .error .panic) ∧
    (∀ subject domain (units : List UnitReference), (∀ binding ∈ units, binding.reference.utf8ByteSize < 2 ^ 63) →
      DomainReferences.newUsize subject domain units ≠ .error .panic ∧
        DomainReferences.newUsize subject domain units = fallible (DomainReferences.new subject domain units)) ∧
    ∀ (state : State V) account requested behavior,
      state.validateUsize account requested behavior ≠ .error .panic ∧
        state.validateUsize account requested behavior = fallible (state.validate account requested behavior) := by
  refine ⟨fun operation attempt previous current => ?_, fun response => openConnectionResponse_failsIn.noPanic,
    fun accountKeys response => discoverSourcesResponse_failsIn.noPanic,
    fun request capability => targetedStateWriteRequest_failsIn.noPanic,
    fun request capability response => targetedStateWriteResponse_failsIn.noPanic,
    fun subject domain units h => ?_, fun state account requested behavior => ?_⟩
  · intro h
    cases validateAttemptOutcome_failsIn _ h
  · rw [DomainReferences.newUsize_eq h]
    exact ⟨FailsIn.fallible.noPanic, rfl⟩
  · rw [State.validateUsize_eq]
    exact ⟨FailsIn.fallible.noPanic, rfl⟩

end ProviderSdk
