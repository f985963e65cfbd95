/-
Operations on completion (`completion_operation.rs`): resource access,
native field observations, the declared behavior, prepared operations and
the outcomes reported for an attempt.

Each `validate` is followed by what it accepts, stated without its loops.
-/
import ProviderSdk.Completion

namespace ProviderSdk

open Checks Text

def maximumEffects : Nat := 256
def maximumCommandBytes : Nat := 65536
def maximumFieldValueBytes : Nat := 65536

inductive OperationError where
  | invalidFieldObservation
  | invalidModel (error : ModelError)
  | invalidBehavior
  | invalidAccess
  | changedBehavior
  | unsupportedOperation
  | invalidPreparation
  | duplicateEffect
  | undeclaredEffect
  | unsupportedUnit
  | changedRepresentation
  | unsupportedProtection
  | incompleteProtection
  | unsafeMerge
  | invalidReplay
  | unsupportedReconciliation
  | invalidOutcome
  deriving DecidableEq

variable {V : Type}

/-! ## Scopes and groups -/

structure EffectScope where
  account : Identity
  subject : Identity
  field : Name

theorem EffectScope.eq_of_parts {a b : EffectScope} (ha : a.account = b.account) (hs : a.subject = b.subject)
    (hf : a.field = b.field) : a = b := by
  cases a; cases b; simp_all

instance : LinearOrder EffectScope :=
  LinearOrder.lift' (fun s => toLex (s.account, toLex (s.subject, s.field))) fun a b h => by
    simp only [EmbeddingLike.apply_eq_iff_eq, Prod.mk.injEq] at h
    exact EffectScope.eq_of_parts h.1 h.2.1 h.2.2

structure EffectGroup where
  account : Identity
  subject : Identity
  group : Name

theorem EffectGroup.eq_of_parts {a b : EffectGroup} (ha : a.account = b.account) (hs : a.subject = b.subject)
    (hg : a.group = b.group) : a = b := by
  cases a; cases b; simp_all

instance : LinearOrder EffectGroup :=
  LinearOrder.lift' (fun g => toLex (g.account, toLex (g.subject, g.group))) fun a b h => by
    simp only [EmbeddingLike.apply_eq_iff_eq, Prod.mk.injEq] at h
    exact EffectGroup.eq_of_parts h.1 h.2.1 h.2.2

def validRevision (value : String) : Bool :=
  value != "" && decide (value.utf8ByteSize ≤ 4096) && !hasControl value

/-! ## Behavior -/

inductive ProtectionKind where
  | conditional
  | monotoneMerge
  | bestEffort
  deriving DecidableEq

def ProtectionKind.rank : ProtectionKind → Nat
  | .conditional => 0
  | .monotoneMerge => 1
  | .bestEffort => 2

instance : LinearOrder ProtectionKind :=
  LinearOrder.lift' ProtectionKind.rank fun a b h => by cases a <;> cases b <;> simp_all [ProtectionKind.rank]

structure OperationCapability where
  operationClass : Name
  effectFields : BTreeSet Name
  protection : BTreeSet ProtectionKind
  deduplication : Bool
  reconciliation : BTreeSet Name

structure Behavior where
  revision : String
  subjectRoles : BTreeSet Name
  units : BTreeSet Name
  operations : List OperationCapability

/-- The body of the loop in `Behavior::validate`. -/
def Behavior.scanOperation (classes : BTreeSet Name) (operation : OperationCapability) :
    Except OperationError (BTreeSet Name) := do
  let (classes, fresh) := classes.insert operation.operationClass
  reject (¬ fresh ∨ operation.effectFields.isEmpty ∨ operation.protection.isEmpty) .invalidBehavior
  pure classes

def Behavior.validate (self : Behavior) : Except OperationError Unit := do
  reject (¬ validRevision self.revision ∨ self.operations.length > maximumEffects) .invalidBehavior
  discard <| self.operations.foldlM Behavior.scanOperation .new

/-- A behavior `Behavior::validate` accepts. -/
structure Behavior.Valid (b : Behavior) : Prop where
  revision : validRevision b.revision = true
  bounded : b.operations.length ≤ maximumEffects
  classes : (b.operations.map (·.operationClass)).Nodup
  declares : ∀ o ∈ b.operations, o.effectFields.isEmpty = false ∧ o.protection.isEmpty = false

theorem Behavior.scanOperation_guarded : Guarded (ε := OperationError) Behavior.scanOperation
    (fun classes o => o.operationClass ∉ classes ∧
      o.effectFields.isEmpty = false ∧ o.protection.isEmpty = false)
    (fun classes o => (classes.insert o.operationClass).1) where
  ok_iff := by simp [scanOperation, and_assoc]

@[simp] theorem Behavior.validate_ok {b : Behavior} {u : Unit} : b.validate = .ok u ↔ b.Valid := by
  simp only [validate, bind_ok, reject_ok, exists_const, discard_ok, not_or, not_not, Nat.not_lt,
    scanOperation_guarded.foldlM_after (b := .new) (fun pre => .collect (pre.map (·.operationClass))) rfl
      (fun pre x => by simp), gt_iff_lt, BTreeSet.mem_collect, each_and, each_fresh, each_forall]
  refine ⟨fun h => ?_, fun h => ?_⟩
  · obtain ⟨⟨h₁, h₂⟩, _, ⟨h₃, h₄, h₅⟩, _⟩ := h
    exact ⟨h₁, h₂, h₃, fun o ho => ⟨h₄ o ho, h₅ o ho⟩⟩
  · exact ⟨⟨h.1, h.2⟩, _, ⟨h.3, fun o ho => (h.4 o ho).1, fun o ho => (h.4 o ho).2⟩, rfl⟩

/-! ## Access and field observations -/

structure ResourceAccess where
  scope : EffectScope
  group : Name
  canonicalGroup : EffectGroup
  revision : String
  readable : Bool
  writable : Bool

def ResourceAccess.validate (self : ResourceAccess) (behavior : Behavior) : Except OperationError Unit := do
  behavior.validate
  reject (¬ validRevision self.revision ∨ self.writable ∧
    ¬ ∃ operation ∈ behavior.operations, self.scope.field ∈ operation.effectFields) .invalidAccess

/-- An access entry `ResourceAccess::validate` accepts, in a valid behavior. -/
structure ResourceAccess.Valid (behavior : Behavior) (a : ResourceAccess) : Prop where
  revision : validRevision a.revision = true
  writable : a.writable = true → ∃ o ∈ behavior.operations, a.scope.field ∈ o.effectFields

@[simp] theorem ResourceAccess.validate_ok {a : ResourceAccess} {b : Behavior} {u : Unit} :
    a.validate b = .ok u ↔ b.Valid ∧ a.Valid b := by
  simp only [validate, bind_ok, Behavior.validate_ok, exists_const, reject_ok, not_or, not_and, not_not]
  exact and_congr_right fun _ => ⟨fun h => ⟨h.1, h.2⟩, fun h => ⟨h.1, h.2⟩⟩

inductive BeforeValue (V : Type) where
  | known (value : V)
  | missing
  | unknown

structure FieldObservation (V : Type) where
  scope : EffectScope
  behaviorRevision : String
  remoteRevision : Option String
  acquiredAtMilliseconds : Int64
  quality : ReadQuality
  value : BeforeValue V

/-! `derive(Serialize)`, as far as a field observation needs it. -/

def Identity.serialize (self : Identity) : Serialize V :=
  .struct [("namespace", .str self.namespaceName.value), ("value", .str self.value)]

def EffectScope.serialize (self : EffectScope) : Serialize V :=
  .struct [("account", self.account.serialize), ("subject", self.subject.serialize),
    ("field", .str self.field.value)]

def ReadQuality.serialize : ReadQuality → Serialize V
  | .complete => .str "complete"
  | .partialRead => .str "partial"
  | .unreadable => .str "unreadable"
  | .stale => .str "stale"

def BeforeValue.serialize : BeforeValue V → Serialize V
  | .known value => .struct [("kind", .str "known"), ("value", .value value)]
  | .missing => .struct [("kind", .str "missing")]
  | .unknown => .struct [("kind", .str "unknown")]

def FieldObservation.serialize (self : FieldObservation V) : Serialize V :=
  .struct [("scope", self.scope.serialize), ("behavior_revision", .str self.behaviorRevision),
    ("remote_revision", self.remoteRevision.elim .null .str),
    ("acquired_at_milliseconds", .int self.acquiredAtMilliseconds.toInt),
    ("quality", self.quality.serialize), ("value", self.value.serialize)]

variable [SerdeJson V]

/-- `matches!(value, Known(value) if bounded_json_size(value, ..).is_err())`. -/
def BeforeValue.oversized : BeforeValue V → Bool
  | .known value => !(boundedJsonSize (.value value) maximumFieldValueBytes).isOk
  | _ => false

def FieldObservation.validate (self : FieldObservation V) : Except OperationError Unit :=
  reject (¬ validRevision self.behaviorRevision ∨
    self.remoteRevision.any (fun revision => !validRevision revision) ∨
    self.acquiredAtMilliseconds < 0 ∨ self.value.oversized) .invalidFieldObservation

/-- A field observation `FieldObservation::validate` accepts. -/
structure FieldObservation.Valid (o : FieldObservation V) : Prop where
  behaviorRevision : validRevision o.behaviorRevision = true
  remoteRevision : ∀ revision, o.remoteRevision = some revision → validRevision revision = true
  acquired : 0 ≤ o.acquiredAtMilliseconds
  value : ∀ value, o.value = .known value → (jsonText (.value value)).length ≤ maximumFieldValueBytes

theorem isOk_boundedJsonSize {value : Serialize V} {limit : Nat} (hl : limit < 2 ^ 64) :
    (boundedJsonSize value limit).isOk = true ↔ (jsonText value).length ≤ limit := by
  rw [← discard_boundedJsonSize_ok (e := id) (u := ()) hl]
  cases boundedJsonSize value limit <;>
    simp [Except.isOk, Except.toBool, discard, Functor.mapConst, Except.map, Except.mapError]

@[simp] theorem FieldObservation.validate_ok {o : FieldObservation V} {u : Unit} :
    o.validate = .ok u ↔ o.Valid := by
  have hv : ¬ o.value.oversized = true ↔ ∀ value, o.value = .known value →
      (jsonText (.value value)).length ≤ maximumFieldValueBytes := by
    cases o.value <;> simp [BeforeValue.oversized,
      isOk_boundedJsonSize (show maximumFieldValueBytes < 2 ^ 64 by decide)]
  have hr : ¬ (o.remoteRevision.any fun revision => !validRevision revision) = true ↔
      ∀ revision, o.remoteRevision = some revision → validRevision revision = true := by
    cases o.remoteRevision <;> simp
  simp only [validate, reject_ok, not_or, not_not, hr, hv, Int64.not_lt]
  refine ⟨fun h => ?_, fun h => ?_⟩
  · obtain ⟨h₁, h₂, h₃, h₄⟩ := h
    exact ⟨h₁, h₂, h₃, h₄⟩
  · exact ⟨h.1, h.2, h.3, h.4⟩

end ProviderSdk
