/-
The messages of the adapter protocol (`adapter.proto`), with the fields the
validators read.

An enum field holds whatever `i32` was on the wire; `tryFrom` is the
conversion `prost` generates, which knows exactly the declared numbers.
-/
import Mathlib.Data.Int.Init

namespace ProviderSdk.V1

structure ProtocolVersion where
  major : UInt32
  minor : UInt32
  deriving DecidableEq

structure ProtocolRange where
  minimum : Option ProtocolVersion
  maximum : Option ProtocolVersion

structure Key where
  namespaceName : String
  value : List UInt8
  deriving DecidableEq

structure Term where
  namespaceName : String
  name : String
  deriving DecidableEq

structure DecimalValue where
  value : String
  deriving DecidableEq

structure TimestampValue where
  milliseconds : Int64
  deriving DecidableEq

/-- The `oneof` of `Value`. -/
inductive ValueKind where
  | boolean (value : Bool)
  | integer (value : Int64)
  | decimal (value : DecimalValue)
  | text (value : String)
  | bytes (value : List UInt8)
  | timestamp (value : TimestampValue)
  deriving DecidableEq

structure Value where
  value : Option ValueKind
  deriving DecidableEq

/-! ## Failures -/

inductive OperationFailureCategory where
  | unspecified
  | invalidInput
  | authentication
  | authorization
  | rateLimited
  | unavailable
  | conflict
  | unsupported
  | invalidRemoteData
  | internal
  deriving DecidableEq

def OperationFailureCategory.tryFrom (value : Int32) : Option OperationFailureCategory :=
  match value.toInt with
  | 0 => some .unspecified
  | 1 => some .invalidInput
  | 2 => some .authentication
  | 3 => some .authorization
  | 4 => some .rateLimited
  | 5 => some .unavailable
  | 6 => some .conflict
  | 7 => some .unsupported
  | 8 => some .invalidRemoteData
  | 9 => some .internal
  | _ => none

inductive RetryDisposition where
  | unspecified
  | notRetryable
  | retryable
  | retryAfter
  deriving DecidableEq

def RetryDisposition.tryFrom (value : Int32) : Option RetryDisposition :=
  match value.toInt with
  | 0 => some .unspecified
  | 1 => some .notRetryable
  | 2 => some .retryable
  | 3 => some .retryAfter
  | _ => none

/-- `google.protobuf.Duration`. -/
structure Duration where
  seconds : Int64
  nanos : Int32
  deriving DecidableEq

structure RetryAdvice where
  disposition : Int32
  after : Option Duration
  deriving DecidableEq

structure FieldProblem where
  path : String
  code : String
  message : String
  deriving DecidableEq

structure OperationFailure where
  category : Int32
  code : String
  safeMessage : String
  retry : Option RetryAdvice
  fieldProblems : List FieldProblem
  deriving DecidableEq

/-! ## Subjects and fields -/

structure StateField where
  field : Option Term
  unit : Option Term
  deriving DecidableEq

/-- The `oneof` of `SubjectReference`. -/
inductive SubjectKey where
  | providerItemKey (key : Key)
  | catalogRelationKey (key : Key)
  deriving DecidableEq

structure SubjectReference where
  subject : Option SubjectKey
  deriving DecidableEq

/-! ## Streamed reads -/

inductive ReadMode where
  | unspecified
  | full
  | incremental
  deriving DecidableEq

def ReadMode.tryFrom (value : Int32) : Option ReadMode :=
  match value.toInt with
  | 0 => some .unspecified
  | 1 => some .full
  | 2 => some .incremental
  | _ => none

def ReadMode.number : ReadMode → Int32
  | .unspecified => 0
  | .full => 1
  | .incremental => 2

theorem ReadMode.tryFrom_some {value : Int32} {mode : ReadMode} :
    ReadMode.tryFrom value = some mode ↔ value = mode.number := by
  refine ⟨fun h => ?_, fun h => ?_⟩
  · rw [← Int32.toInt_inj]
    unfold tryFrom at h
    split at h <;> cases h <;> assumption
  · rw [h]
    cases mode <;> rfl

/-- The requests of both streamed reads. -/
structure ReadRequest where
  operationId : List UInt8
  sourceKey : Option Key
  mode : Int32
  priorCursor : List UInt8
  preferredBatchSize : UInt32

abbrev ReadCatalogRequest : Type := ReadRequest

abbrev ReadStateRequest : Type := ReadRequest

structure ReadHeartbeat where
  operationId : List UInt8

structure ReadCompleted where
  nextCursor : List UInt8
  evidenceRevision : List UInt8

structure ReadFailed where
  error : Option OperationFailure

structure ProviderItem where
  key : Option Key
  kind : Option Term
  displayName : String

structure CatalogRelation where
  key : Option Key
  parentKey : Option Key
  providerItemKey : Option Key
  kind : Option Term

structure SubjectUnitBindingKey where
  unitKey : String
  subject : Option SubjectReference

structure SubjectUnitBinding where
  key : Option SubjectUnitBindingKey
  relevanceRank : Option UInt32

structure CatalogBatch where
  sequence : UInt64
  itemUpserts : List ProviderItem
  itemDeletes : List Key
  relationUpserts : List CatalogRelation
  relationDeletes : List Key
  unitBindingUpserts : List SubjectUnitBinding
  unitBindingDeletes : List SubjectUnitBindingKey

/-- The `oneof` of `StateObservation`. -/
inductive StateObservationKind where
  | value (value : Value)
  | deletion

structure StateObservation where
  subject : Option SubjectReference
  field : Option StateField
  observation : Option StateObservationKind

structure StateBatch where
  sequence : UInt64
  observations : List StateObservation

/-- The `oneof` of a streamed read, over its batches. -/
inductive ReadEvent (B : Type) where
  | heartbeat (heartbeat : ReadHeartbeat)
  | batch (batch : B)
  | completed (completed : ReadCompleted)
  | failed (failed : ReadFailed)
  | cancelled

structure ReadResponse (B : Type) where
  event : Option (ReadEvent B)

abbrev ReadCatalogResponse : Type := ReadResponse CatalogBatch

abbrev ReadStateResponse : Type := ReadResponse StateBatch

/-! ## Targeted state -/

inductive SourceMembership where
  | unspecified
  | present
  | absent
  | unknown
  deriving DecidableEq

def SourceMembership.tryFrom (value : Int32) : Option SourceMembership :=
  match value.toInt with
  | 0 => some .unspecified
  | 1 => some .present
  | 2 => some .absent
  | 3 => some .unknown
  | _ => none

structure TargetedStateReadCapability where
  maximumFields : UInt32
  maximumResponseBytes : UInt64

structure ReadTargetedStateRequest where
  operationId : List UInt8
  sourceKey : Option Key
  subject : Option SubjectReference
  fields : List StateField
  maximumResponseBytes : UInt64
  reconciliationIdempotencyKey : List UInt8

inductive TargetedStateWritePreconditionMode where
  | unspecified
  | providerToken
  | hostRecheckOnly
  deriving DecidableEq

def TargetedStateWritePreconditionMode.tryFrom (value : Int32) : Option TargetedStateWritePreconditionMode :=
  match value.toInt with
  | 0 => some .unspecified
  | 1 => some .providerToken
  | 2 => some .hostRecheckOnly
  | _ => none

inductive TargetedStateWriteIdempotencyMode where
  | unspecified
  | notSupported
  | stableKey
  deriving DecidableEq

def TargetedStateWriteIdempotencyMode.tryFrom (value : Int32) : Option TargetedStateWriteIdempotencyMode :=
  match value.toInt with
  | 0 => some .unspecified
  | 1 => some .notSupported
  | 2 => some .stableKey
  | _ => none

structure TargetedStateFieldWriteCapability where
  field : Option StateField
  setSupported : Bool
  clearSupported : Bool

structure TargetedStateWriteCapability where
  fields : List TargetedStateFieldWriteCapability
  mayCreateSourceMembership : Bool
  preconditionMode : Int32
  idempotencyMode : Int32
  maximumFields : UInt32
  maximumRequestBytes : UInt64
  maximumResponseBytes : UInt64
  maximumReceiptBytes : UInt64

/-- The `oneof` of `TargetedStateWriteIntent`. -/
inductive TargetedStateWriteOperation where
  | set (value : Value)
  | clear

structure TargetedStateWriteIntent where
  field : Option StateField
  operation : Option TargetedStateWriteOperation

structure WriteTargetedStateRequest where
  operationId : List UInt8
  sourceKey : Option Key
  subject : Option SubjectReference
  idempotencyKey : List UInt8
  expectedMembership : Int32
  precondition : List UInt8
  allowCreateMembership : Bool
  intents : List TargetedStateWriteIntent
  maximumReceiptBytes : UInt64
  maximumResponseBytes : UInt64

inductive TargetedStateWriteStatus where
  | unspecified
  | applied
  | noOp
  | rejected
  | failed
  | indeterminate
  deriving DecidableEq

def TargetedStateWriteStatus.tryFrom (value : Int32) : Option TargetedStateWriteStatus :=
  match value.toInt with
  | 0 => some .unspecified
  | 1 => some .applied
  | 2 => some .noOp
  | 3 => some .rejected
  | 4 => some .failed
  | 5 => some .indeterminate
  | _ => none

inductive TargetedStateWriteCertainty where
  | unspecified
  | confirmedApplied
  | confirmedNotApplied
  | unknown
  deriving DecidableEq

def TargetedStateWriteCertainty.tryFrom (value : Int32) : Option TargetedStateWriteCertainty :=
  match value.toInt with
  | 0 => some .unspecified
  | 1 => some .confirmedApplied
  | 2 => some .confirmedNotApplied
  | 3 => some .unknown
  | _ => none

inductive TargetedStateWriteRetryDisposition where
  | unspecified
  | notRetryable
  | safeSameKey
  | reconcileFirst
  deriving DecidableEq

def TargetedStateWriteRetryDisposition.tryFrom (value : Int32) : Option TargetedStateWriteRetryDisposition :=
  match value.toInt with
  | 0 => some .unspecified
  | 1 => some .notRetryable
  | 2 => some .safeSameKey
  | 3 => some .reconcileFirst
  | _ => none

inductive TargetedStateMembershipEffect where
  | unspecified
  | unchanged
  | created
  | unknown
  deriving DecidableEq

def TargetedStateMembershipEffect.tryFrom (value : Int32) : Option TargetedStateMembershipEffect :=
  match value.toInt with
  | 0 => some .unspecified
  | 1 => some .unchanged
  | 2 => some .created
  | 3 => some .unknown
  | _ => none

inductive TargetedStateFieldEffectKind where
  | unspecified
  | set
  | cleared
  | unchanged
  | unknown
  deriving DecidableEq

def TargetedStateFieldEffectKind.tryFrom (value : Int32) : Option TargetedStateFieldEffectKind :=
  match value.toInt with
  | 0 => some .unspecified
  | 1 => some .set
  | 2 => some .cleared
  | 3 => some .unchanged
  | 4 => some .unknown
  | _ => none

structure TargetedStateWriteFieldEffect where
  field : Option StateField
  effect : Int32
  value : Option Value

structure WriteTargetedStateResponse where
  status : Int32
  certainty : Int32
  retryDisposition : Int32
  membershipEffect : Int32
  fieldEffects : List TargetedStateWriteFieldEffect
  providerRevision : List UInt8
  successorPrecondition : List UInt8
  receipt : List UInt8
  error : Option OperationFailure

inductive StatePresence where
  | unspecified
  | present
  | deleted
  | absent
  | unknown
  | stale
  deriving DecidableEq

def StatePresence.tryFrom (value : Int32) : Option StatePresence :=
  match value.toInt with
  | 0 => some .unspecified
  | 1 => some .present
  | 2 => some .deleted
  | 3 => some .absent
  | 4 => some .unknown
  | 5 => some .stale
  | _ => none

structure TargetedStateFieldObservation where
  field : Option StateField
  presence : Int32
  value : Option Value

structure TargetedStateWriteCausation where
  idempotencyKey : List UInt8
  receipt : List UInt8
  providerRevision : List UInt8

structure TargetedStateReadMatched where
  membership : Int32
  fields : List TargetedStateFieldObservation
  providerRevision : List UInt8
  observedTimeMilliseconds : Int64
  expiresTimeMilliseconds : Option Int64
  precondition : List UInt8
  writeCausation : Option TargetedStateWriteCausation

structure TargetedStateReadAmbiguous where
  candidates : List SubjectReference

structure TargetedStateReadIndeterminate where
  error : Option OperationFailure

/-- The `oneof` of `ReadTargetedStateResponse`. -/
inductive TargetedStateReadOutcome where
  | matched (matched : TargetedStateReadMatched)
  | unsupported
  | notFound
  | ambiguous (ambiguous : TargetedStateReadAmbiguous)
  | indeterminate (indeterminate : TargetedStateReadIndeterminate)

structure ReadTargetedStateResponse where
  outcome : Option TargetedStateReadOutcome

/-! ## Connections -/

structure AccountSnapshot where
  key : Option Key
  displayName : String

structure ReadCapability where
  full : Bool
  incremental : Bool

structure StateFieldNumericRange where
  minimum : String
  maximum : String
  step : String

inductive StateFieldQuantizer where
  | unspecified
  | exact
  | nearest
  | floor
  | ceiling
  deriving DecidableEq

def StateFieldQuantizer.tryFrom (value : Int32) : Option StateFieldQuantizer :=
  match value.toInt with
  | 0 => some .unspecified
  | 1 => some .exact
  | 2 => some .nearest
  | 3 => some .floor
  | 4 => some .ceiling
  | _ => none

structure StateFieldDescriptor where
  field : Option Term
  unit : Option Term
  numericRange : Option StateFieldNumericRange
  quantizer : Int32

structure AssetCapability where
  maximumBytes : UInt64
  contentTypes : List String

structure SourceCapabilities where
  catalog : Option ReadCapability
  state : Option ReadCapability
  stateFields : List StateFieldDescriptor
  assets : Option AssetCapability
  targetedStateRead : Option TargetedStateReadCapability
  targetedStateWrite : Option TargetedStateWriteCapability

structure SourceSnapshot where
  key : Option Key
  accountKey : Option Key
  displayName : String
  kind : Option Term
  capabilities : Option SourceCapabilities

structure OpenConnectionResult where
  accounts : List AccountSnapshot

structure DiscoverSourcesResult where
  sources : List SourceSnapshot

/-- The `oneof` of a response that has a result or an error. -/
inductive ResultOutcome (R : Type) where
  | result (result : R)
  | error (error : OperationFailure)

structure ResultResponse (R : Type) where
  outcome : Option (ResultOutcome R)

abbrev OpenConnectionResponse : Type := ResultResponse OpenConnectionResult

abbrev DiscoverSourcesResponse : Type := ResultResponse DiscoverSourcesResult

/-! ## Health and authentication -/

inductive HealthStatus where
  | unspecified
  | ready
  | degraded
  | notReady
  deriving DecidableEq

def HealthStatus.tryFrom (value : Int32) : Option HealthStatus :=
  match value.toInt with
  | 0 => some .unspecified
  | 1 => some .ready
  | 2 => some .degraded
  | 3 => some .notReady
  | _ => none

structure HealthResponse where
  status : Int32
  error : Option OperationFailure

inductive AuthenticationStatus where
  | unspecified
  | waiting
  | inputRequired
  | completed
  | cancelled
  | expired
  | failed
  deriving DecidableEq

def AuthenticationStatus.tryFrom (value : Int32) : Option AuthenticationStatus :=
  match value.toInt with
  | 0 => some .unspecified
  | 1 => some .waiting
  | 2 => some .inputRequired
  | 3 => some .completed
  | 4 => some .cancelled
  | 5 => some .expired
  | 6 => some .failed
  | _ => none

/-- Of a prompt only its presence is read. -/
structure AuthenticationPrompt where

structure AuthenticationProgress where
  authenticationId : String
  status : Int32
  prompt : Option AuthenticationPrompt
  accounts : List AccountSnapshot

abbrev StartAuthenticationResponse : Type := ResultResponse AuthenticationProgress

abbrev ContinueAuthenticationResponse : Type := ResultResponse AuthenticationProgress

/-! ## Assets -/

structure ContentHash where
  algorithm : Option Term
  digest : List UInt8

structure ReadAssetResult where
  content : List UInt8
  contentType : String
  fullLength : UInt64
  hash : Option ContentHash
  cacheControl : String

abbrev ReadAssetResponse : Type := ResultResponse ReadAssetResult

end ProviderSdk.V1
