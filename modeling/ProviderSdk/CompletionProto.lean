/-
The messages of the completion service (`completion.proto`), of the same
package as those of the adapter protocol.
-/
import ProviderSdk.V1

namespace ProviderSdk.V1

structure CompletionIdentity where
  namespaceName : String
  value : String

structure CompletionSubject where
  identity : Option CompletionIdentity
  classifications : List String
  role : String
  label : String

/-! ## Domains and references -/

inductive CompletionOrdering where
  | unspecified
  | ordered
  | unordered

def CompletionOrdering.tryFrom (value : Int32) : Option CompletionOrdering :=
  match value.toInt with
  | 0 => some .unspecified
  | 1 => some .ordered
  | 2 => some .unordered
  | _ => none

/-- `as i32`. -/
def CompletionOrdering.number : CompletionOrdering → Int32
  | .unspecified => 0
  | .ordered => 1
  | .unordered => 2

theorem CompletionOrdering.tryFrom_eq_some {value : Int32} {o : CompletionOrdering} :
    tryFrom value = some o ↔ o.number = value := by
  refine ⟨fun h => ?_, fun h => by subst h; cases o <;> rfl⟩
  unfold tryFrom at h
  split at h <;> cases h <;> rename_i hv <;> exact Int32.toInt_inj.mp (hv ▸ rfl)

structure CompletionDomain where
  identity : Option CompletionIdentity
  revision : String
  unit : String
  ordering : Int32
  units : List CompletionIdentity
  closed : Bool

structure CompletionUnitReference where
  unit : Option CompletionIdentity
  reference : String

structure CompletionDomainReferences where
  subject : Option CompletionIdentity
  domain : Option CompletionDomain
  units : List CompletionUnitReference

/-! ## Observations -/

structure CompletionItems where
  completed : List CompletionIdentity

/-- `completion_progress::Value`. -/
inductive CompletionProgressValue where
  | items (items : CompletionItems)
  | prefixCount (completed : UInt32)
  | cardinality (completed : UInt32)

structure CompletionProgress where
  value : Option CompletionProgressValue

inductive CompletionReadQuality where
  | unspecified
  | complete
  | partialRead
  | unreadable
  | stale

def CompletionReadQuality.tryFrom (value : Int32) : Option CompletionReadQuality :=
  match value.toInt with
  | 0 => some .unspecified
  | 1 => some .complete
  | 2 => some .partialRead
  | 3 => some .unreadable
  | 4 => some .stale
  | _ => none

/-- `as i32`. -/
def CompletionReadQuality.number : CompletionReadQuality → Int32
  | .unspecified => 0
  | .complete => 1
  | .partialRead => 2
  | .unreadable => 3
  | .stale => 4

theorem CompletionReadQuality.tryFrom_eq_some {value : Int32} {q : CompletionReadQuality} :
    tryFrom value = some q ↔ q.number = value := by
  refine ⟨fun h => ?_, fun h => by subst h; cases q <;> rfl⟩
  unfold tryFrom at h
  split at h <;> cases h <;> rename_i hv <;> exact Int32.toInt_inj.mp (hv ▸ rfl)

/-- `completion_observation::Presence`. -/
inductive CompletionPresence where
  | present (progress : CompletionProgress)
  | cleared
  | missing
  | meaningfulAbsence

structure CompletionObservation where
  origin : Option CompletionIdentity
  account : Option CompletionIdentity
  subject : Option CompletionIdentity
  behaviorRevision : String
  remoteRevision : Option String
  acquiredAtMilliseconds : Int64
  domain : Option CompletionDomain
  quality : Int32
  presence : Option CompletionPresence
  nativeValueJson : List UInt8
  field : String

structure CompletionEffectScope where
  account : Option CompletionIdentity
  subject : Option CompletionIdentity
  field : String

structure CompletionEffectGroup where
  account : Option CompletionIdentity
  subject : Option CompletionIdentity
  group : String

structure CompletionResourceAccess where
  scope : Option CompletionEffectScope
  group : String
  canonicalGroup : Option CompletionEffectGroup
  revision : String
  readable : Bool
  writable : Bool

/-- `completion_before_value::Value`. -/
inductive CompletionBeforeValueKind where
  | knownJson (bytes : List UInt8)
  | missing
  | unknown

structure CompletionBeforeValue where
  value : Option CompletionBeforeValueKind

structure CompletionFieldObservation where
  scope : Option CompletionEffectScope
  behaviorRevision : String
  remoteRevision : Option String
  acquiredAtMilliseconds : Int64
  quality : Int32
  value : Option CompletionBeforeValue

structure CompletionReadResult where
  subjects : List CompletionSubject
  observations : List CompletionObservation
  access : List CompletionResourceAccess
  references : List CompletionDomainReferences
  fieldObservations : List CompletionFieldObservation

/-! ## Prepared operations -/

structure CompletionSetter where
  domain : Option CompletionDomain
  before : Option CompletionProgress
  after : Option CompletionProgress

structure CompletionMerge where
  domain : Option CompletionDomain
  before : Option CompletionItems
  additions : Option CompletionItems

structure CompletionValueSetter where
  before : Option CompletionBeforeValue
  afterJson : List UInt8

/-- `completion_effect::Change`. -/
inductive CompletionChange where
  | setCompletion (setter : CompletionSetter)
  | mergeItems (merge : CompletionMerge)
  | setValue (setter : CompletionValueSetter)
  | appendJson (bytes : List UInt8)

structure CompletionEffect where
  scope : Option CompletionEffectScope
  group : String
  change : Option CompletionChange

structure CompletionConditionalProtection where
  token : String
  groups : List CompletionEffectGroup

/-- `completion_protection::Value`. -/
inductive CompletionProtectionValue where
  | conditional (protection : CompletionConditionalProtection)
  | monotoneMerge
  | bestEffort

structure CompletionProtection where
  value : Option CompletionProtectionValue

structure CompletionDeduplication where
  key : Option CompletionIdentity
  scope : Option CompletionIdentity
  validUntilMilliseconds : Int64

/-- `completion_replay::Value`. -/
inductive CompletionReplayValue where
  | unsupported
  | deduplicated (deduplication : CompletionDeduplication)

structure CompletionReplay where
  value : Option CompletionReplayValue

structure CompletionCommand where
  method : String
  parametersJson : List UInt8

structure PreparedCompletionOperation where
  identity : Option CompletionIdentity
  operationClass : String
  behaviorRevision : String
  preparedAtMilliseconds : Int64
  expiresAtMilliseconds : Int64
  effects : List CompletionEffect
  protection : Option CompletionProtection
  replay : Option CompletionReplay
  reconciliation : Option String
  command : Option CompletionCommand

/-! ## Behaviors -/

inductive CompletionProtectionKind where
  | unspecified
  | conditional
  | monotoneMerge
  | bestEffort

def CompletionProtectionKind.tryFrom (value : Int32) : Option CompletionProtectionKind :=
  match value.toInt with
  | 0 => some .unspecified
  | 1 => some .conditional
  | 2 => some .monotoneMerge
  | 3 => some .bestEffort
  | _ => none

/-- `as i32`. -/
def CompletionProtectionKind.number : CompletionProtectionKind → Int32
  | .unspecified => 0
  | .conditional => 1
  | .monotoneMerge => 2
  | .bestEffort => 3

theorem CompletionProtectionKind.tryFrom_eq_some {value : Int32} {k : CompletionProtectionKind} :
    tryFrom value = some k ↔ k.number = value := by
  refine ⟨fun h => ?_, fun h => by subst h; cases k <;> rfl⟩
  unfold tryFrom at h
  split at h <;> cases h <;> rename_i hv <;> exact Int32.toInt_inj.mp (hv ▸ rfl)

structure CompletionOperationCapability where
  operationClass : String
  effectFields : List String
  protection : List Int32
  deduplication : Bool
  reconciliation : List String

structure CompletionBehavior where
  revision : String
  subjectRoles : List String
  units : List String
  operations : List CompletionOperationCapability

/-! ## Discovery -/

structure CompletionSubjectField where
  field : String
  group : String
  unitKinds : List String
  readable : Bool
  writable : Bool

structure CompletionLibrary where
  account : Option CompletionIdentity
  behavior : Option CompletionBehavior
  fields : List CompletionSubjectField

structure CompletionSubjectDescriptor where
  subject : Option CompletionSubject
  fields : List CompletionSubjectField

structure CompletionSubjectPage where
  library : Option CompletionLibrary
  subjects : List CompletionSubjectDescriptor
  nextCursor : Option String

structure CompletionContext where
  operationId : List UInt8
  sourceKey : Option Key

structure DiscoverCompletionSubjectsRequest where
  context : Option CompletionContext
  pageSize : UInt32
  cursor : Option String

/-! ## Intentions -/

structure CompletionIntention where
  scope : Option CompletionEffectScope
  domain : Option CompletionDomain
  baseline : Option CompletionProgress
  desired : Option CompletionProgress

/-! ## Outcomes -/

structure CompletionTerminalEvidence where
  kind : String
  identity : Option CompletionIdentity

inductive CompletionEffectKnowledge where
  | unspecified
  | unknown
  | notApplied
  | applied
  | partiallyApplied

def CompletionEffectKnowledge.tryFrom (value : Int32) : Option CompletionEffectKnowledge :=
  match value.toInt with
  | 0 => some .unspecified
  | 1 => some .unknown
  | 2 => some .notApplied
  | 3 => some .applied
  | 4 => some .partiallyApplied
  | _ => none

/-- `as i32`. -/
def CompletionEffectKnowledge.number : CompletionEffectKnowledge → Int32
  | .unspecified => 0
  | .unknown => 1
  | .notApplied => 2
  | .applied => 3
  | .partiallyApplied => 4

theorem CompletionEffectKnowledge.tryFrom_eq_some {value : Int32} {k : CompletionEffectKnowledge} :
    tryFrom value = some k ↔ k.number = value := by
  refine ⟨fun h => ?_, fun h => by subst h; cases k <;> rfl⟩
  unfold tryFrom at h
  split at h <;> cases h <;> rename_i hv <;> exact Int32.toInt_inj.mp (hv ▸ rfl)

structure CompletionEffectOutcome where
  scope : Option CompletionEffectScope
  knowledge : Int32

inductive CompletionSatisfaction where
  | unspecified
  | unknown
  | satisfied
  | unsatisfied

def CompletionSatisfaction.tryFrom (value : Int32) : Option CompletionSatisfaction :=
  match value.toInt with
  | 0 => some .unspecified
  | 1 => some .unknown
  | 2 => some .satisfied
  | 3 => some .unsatisfied
  | _ => none

/-- `as i32`. -/
def CompletionSatisfaction.number : CompletionSatisfaction → Int32
  | .unspecified => 0
  | .unknown => 1
  | .satisfied => 2
  | .unsatisfied => 3

theorem CompletionSatisfaction.tryFrom_eq_some {value : Int32} {s : CompletionSatisfaction} :
    tryFrom value = some s ↔ s.number = value := by
  refine ⟨fun h => ?_, fun h => by subst h; cases s <;> rfl⟩
  unfold tryFrom at h
  split at h <;> cases h <;> rename_i hv <;> exact Int32.toInt_inj.mp (hv ▸ rfl)

/-- `completion_attempt_outcome::Lifecycle`. -/
inductive CompletionLifecycle where
  | notDispatched
  | mayStillExecute
  | terminal (evidence : CompletionTerminalEvidence)

structure CompletionAttemptOutcome where
  operation : Option CompletionIdentity
  attempt : Option CompletionIdentity
  lifecycle : Option CompletionLifecycle
  effects : List CompletionEffectOutcome
  satisfaction : Int32

end ProviderSdk.V1
