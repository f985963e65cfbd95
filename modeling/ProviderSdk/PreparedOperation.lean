/-
Prepared operations (`completion_operation.rs`): effects, protection, replay,
and the checks an operation passes against its behavior and its request.
-/
import ProviderSdk.CompletionOperation

namespace ProviderSdk

open Checks Text

variable {V : Type}

/-! ## Effects -/

inductive Change (V : Type) where
  | setCompletion (domain : Domain) (before after : Progress)
  | mergeItems (domain : Domain) (before additions : BTreeSet Identity)
  | setValue (before : BeforeValue V) (after : V)
  | append (value : V)

structure Effect (V : Type) where
  scope : EffectScope
  group : Name
  change : Change V

/-- `Effect::group`. -/
def Effect.effectGroup (self : Effect V) : EffectGroup where
  account := self.scope.account
  subject := self.scope.subject
  group := self.group

/-- `?` on a `ModelError` where an `OperationError` is returned. -/
def ofModel {α : Type} (x : Except ModelError α) : Except OperationError α := x.mapError .invalidModel

@[simp] theorem ofModel_ok {α : Type} {x : Except ModelError α} {a : α} : ofModel x = .ok a ↔ x = .ok a :=
  mapError_ok

def Effect.validate (self : Effect V) : Except OperationError Unit :=
  match self.change with
  | .setCompletion domain before after => do
    ofModel (before.validate domain)
    ofModel (after.validate domain)
    reject (before.kind ≠ after.kind) .changedRepresentation
  | .mergeItems domain before additions => do
    ofModel (domain.validateUnits before)
    ofModel (domain.validateUnits additions)
  | .setValue _ _ | .append _ => pure ()

/-- A change `Effect::validate` accepts. -/
def Change.Valid : Change V → Prop
  | .setCompletion domain before after =>
    before.Valid domain ∧ after.Valid domain ∧ before.kind = after.kind
  | .mergeItems domain before additions =>
    (∀ unit ∈ before, unit ∈ domain.units) ∧ ∀ unit ∈ additions, unit ∈ domain.units
  | .setValue _ _ | .append _ => True

@[simp] theorem Effect.validate_ok {e : Effect V} {u : Unit} : e.validate = .ok u ↔ e.change.Valid := by
  unfold Effect.validate Change.Valid
  cases e.change <;> simp

/-- The domain of a setter or a merge. -/
def Change.domain : Change V → Option Domain
  | .setCompletion domain _ _ | .mergeItems domain _ _ => some domain
  | .setValue _ _ | .append _ => none

def Change.isMergeItems : Change V → Bool
  | .mergeItems _ _ _ => true
  | _ => false

/-! ## Protection, replay and command -/

inductive Protection where
  | conditional (token : String) (groups : BTreeSet EffectGroup)
  | monotoneMerge
  | bestEffort

def Protection.kind : Protection → ProtectionKind
  | .conditional _ _ => .conditional
  | .monotoneMerge => .monotoneMerge
  | .bestEffort => .bestEffort

inductive Replay where
  | unsupported
  | deduplicated (key scope : Identity) (validUntilMilliseconds : Int64)

structure Command (V : Type) where
  method : Name
  parameters : V

/-- `derive(Serialize)` on `Command`. -/
def Command.serialize (self : Command V) : Serialize V :=
  .struct [("method", .str self.method.value), ("parameters", .value self.parameters)]

structure PreparedOperation (V : Type) where
  identity : Identity
  operationClass : Name
  behaviorRevision : String
  preparedAtMilliseconds : Int64
  expiresAtMilliseconds : Int64
  effects : List (Effect V)
  protection : Protection
  replay : Replay
  reconciliation : Option Name
  command : Command V

/-! ## The checks -/

def PreparedOperation.effectGroups (self : PreparedOperation V) : BTreeSet EffectGroup :=
  .collect (self.effects.map (·.effectGroup))

/-- The body of the loop over the effects in `PreparedOperation::validate`. -/
def scanEffect (behavior : Behavior) (capability : OperationCapability) (scopes : BTreeSet EffectScope)
    (effect : Effect V) : Except OperationError (BTreeSet EffectScope) := do
  effect.validate
  let (scopes, fresh) := scopes.insert effect.scope
  reject (¬ fresh) .duplicateEffect
  reject (effect.scope.field ∉ capability.effectFields) .undeclaredEffect
  reject (effect.change.domain.any fun domain => domain.unit ∉ behavior.units) .unsupportedUnit
  pure scopes

def PreparedOperation.validateProtection (self : PreparedOperation V) : Except OperationError Unit :=
  match self.protection with
  | .conditional token groups =>
    reject (¬ validRevision token ∨ groups ≠ self.effectGroups) .incompleteProtection
  | .monotoneMerge => reject (¬ self.effects.all fun effect => effect.change.isMergeItems) .unsafeMerge
  | .bestEffort => pure ()

def PreparedOperation.validateReplay (self : PreparedOperation V) (capability : OperationCapability) :
    Except OperationError Unit :=
  match self.replay with
  | .deduplicated _ _ validUntilMilliseconds =>
    reject (¬ capability.deduplication ∨ validUntilMilliseconds ≤ self.preparedAtMilliseconds) .invalidReplay
  | .unsupported => pure ()

/-- The body of the loop over the requested scopes in
`PreparedOperation::validate_for`. -/
def scanRequested (account : Identity) (effects requested : BTreeSet EffectScope) (scope : EffectScope) :
    Except OperationError (BTreeSet EffectScope) := do
  let (requested, fresh) := requested.insert scope
  reject (scope.account ≠ account ∨ ¬ fresh ∨ scope ∉ effects) .invalidPreparation
  pure requested

/-! ## What the parts of the checks accept -/

/-- The protection an operation claims is one its effects have: conditional
protection names exactly their groups, and monotone protection covers
nothing but merges. -/
def PreparedOperation.Protected (op : PreparedOperation V) : Prop :=
  match op.protection with
  | .conditional token groups => validRevision token = true ∧
    ∀ g, g ∈ groups ↔ ∃ e ∈ op.effects, g = ⟨e.scope.account, e.scope.subject, e.group⟩
  | .monotoneMerge => ∀ e ∈ op.effects, ∃ domain before additions, e.change = .mergeItems domain before additions
  | .bestEffort => True

/-- What a capability of the behavior allows an operation. -/
structure PreparedOperation.PermittedBy (behavior : Behavior) (capability : OperationCapability)
    (op : PreparedOperation V) : Prop where
  fields : ∀ e ∈ op.effects, e.scope.field ∈ capability.effectFields
  protection : op.protection.kind ∈ capability.protection
  replay : ∀ key scope validUntil, op.replay = .deduplicated key scope validUntil →
    capability.deduplication = true ∧ op.preparedAtMilliseconds < validUntil
  reconciliation : ∀ method, op.reconciliation = some method → method ∈ capability.reconciliation

theorem PreparedOperation.mem_effectGroups {op : PreparedOperation V} {g : EffectGroup} :
    g ∈ op.effectGroups ↔ ∃ e ∈ op.effects, g = ⟨e.scope.account, e.scope.subject, e.group⟩ := by
  simp only [effectGroups, BTreeSet.mem_collect, List.mem_map, Effect.effectGroup]
  exact exists_congr fun e => and_congr_right fun _ => eq_comm

theorem PreparedOperation.validateProtection_ok {op : PreparedOperation V} {u : Unit} :
    op.validateProtection = .ok u ↔ op.Protected := by
  unfold validateProtection Protected
  cases op.protection with
  | conditional token groups =>
    simp only [reject_ok, not_or, not_not, ne_eq, ← mem_effectGroups]
    exact and_congr_right fun _ => ⟨fun h g => by rw [h], BTreeSet.ext⟩
  | monotoneMerge =>
    simp only [reject_ok, not_not, List.all_eq_true]
    refine forall₂_congr fun e _ => ?_
    cases e.change <;> simp [Change.isMergeItems]
  | bestEffort => simp

theorem PreparedOperation.validateReplay_ok {op : PreparedOperation V} {c : OperationCapability} {u : Unit} :
    op.validateReplay c = .ok u ↔ ∀ key scope validUntil, op.replay = .deduplicated key scope validUntil →
      c.deduplication = true ∧ op.preparedAtMilliseconds < validUntil := by
  unfold validateReplay
  cases op.replay <;> simp

theorem scanEffect_guarded {behavior : Behavior} {capability : OperationCapability} :
    Guarded (ε := OperationError) (scanEffect (V := V) behavior capability)
      (fun scopes e => e.scope ∉ scopes ∧ e.change.Valid ∧ e.scope.field ∈ capability.effectFields ∧
        ∀ domain, e.change.domain = some domain → domain.unit ∈ behavior.units)
      (fun scopes e => (scopes.insert e.scope).1) where
  ok_iff {scopes e r} := by
    have hu : ¬ (e.change.domain.any fun domain => domain.unit ∉ behavior.units) = true ↔
        ∀ domain, e.change.domain = some domain → domain.unit ∈ behavior.units := by
      cases e.change.domain <;> simp
    simp only [scanEffect, bind_ok, Effect.validate_ok, exists_const, reject_ok, not_not,
      BTreeSet.insert_fresh, hu, pure_ok]
    refine ⟨fun h => ?_, fun h => ?_⟩
    · obtain ⟨h₁, h₂, h₃, h₄, h₅⟩ := h
      exact ⟨⟨h₂, h₁, h₃, h₄⟩, h₅⟩
    · obtain ⟨⟨h₂, h₁, h₃, h₄⟩, h₅⟩ := h
      exact ⟨h₁, h₂, h₃, h₄, h₅⟩

/-- The first capability of a class is the only one, when classes are
distinct. -/
theorem find_class {operations : List OperationCapability} {c : Name} {o : OperationCapability}
    (hd : (operations.map (·.operationClass)).Nodup) :
    operations.find? (·.operationClass = c) = some o ↔ operations.filter (·.operationClass = c) = [o] :=
  (find_key hd).trans (filter_key hd).symm

theorem scanRequested_guarded {account : Identity} {effects : BTreeSet EffectScope} :
    Guarded (ε := OperationError) (scanRequested account effects)
      (fun requested s => s ∉ requested ∧ s.account = account ∧ s ∈ effects)
      (fun requested s => (requested.insert s).1) where
  ok_iff {requested s r} := by
    simp only [scanRequested, bind_ok, reject_ok, not_or, not_not, ne_eq, exists_const, pure_ok,
      BTreeSet.insert_fresh]
    refine ⟨fun h => ?_, fun h => ?_⟩
    · obtain ⟨⟨h₁, h₂, h₃⟩, h₄⟩ := h
      exact ⟨⟨h₂, h₁, h₃⟩, h₄⟩
    · obtain ⟨⟨h₂, h₁, h₃⟩, h₄⟩ := h
      exact ⟨⟨h₁, h₂, h₃⟩, h₄⟩

theorem scanEffects_ok {behavior : Behavior} {capability : OperationCapability} {effects : List (Effect V)}
    {scopes : BTreeSet EffectScope} :
    effects.foldlM (scanEffect behavior capability) .new = .ok scopes ↔
      ((effects.map (·.scope)).Nodup ∧ (∀ e ∈ effects, e.change.Valid) ∧
        (∀ e ∈ effects, e.scope.field ∈ capability.effectFields) ∧
        ∀ e ∈ effects, ∀ domain, e.change.domain = some domain → domain.unit ∈ behavior.units) ∧
      BTreeSet.collect (effects.map (·.scope)) = scopes := by
  rw [scanEffect_guarded.foldlM_after (b := .new) (fun pre => .collect (pre.map (·.scope))) rfl
    fun pre e => by simp]
  simp only [BTreeSet.mem_collect, each_and, each_fresh, each_forall]

/-! ## The whole operation -/

variable [SerdeJson V]

def PreparedOperation.validate (self : PreparedOperation V) (behavior : Behavior) :
    Except OperationError Unit := do
  behavior.validate
  reject (self.behaviorRevision ≠ behavior.revision) .changedBehavior
  let capability ← okOr (behavior.operations.find? (·.operationClass = self.operationClass))
    .unsupportedOperation
  reject (self.expiresAtMilliseconds ≤ self.preparedAtMilliseconds ∨ self.effects.isEmpty ∨
    self.effects.length > maximumEffects) .invalidPreparation
  discard <| (boundedJsonSize self.command.serialize maximumCommandBytes).mapError fun _ => .invalidPreparation
  discard <| self.effects.foldlM (scanEffect behavior capability) .new
  reject (self.protection.kind ∉ capability.protection) .unsupportedProtection
  self.validateProtection
  self.validateReplay capability
  reject (self.reconciliation.any fun method => method ∉ capability.reconciliation) .unsupportedReconciliation

def PreparedOperation.validateFor (self : PreparedOperation V) (behavior : Behavior)
    (identity account : Identity) (scopes : List EffectScope) : Except OperationError Unit := do
  self.validate behavior
  reject (self.identity ≠ identity ∨ ∃ effect ∈ self.effects, effect.scope.account ≠ account)
    .invalidPreparation
  let effects := BTreeSet.collect (self.effects.map (·.scope))
  let requested ← scopes.foldlM (scanRequested account effects) .new
  reject requested.isEmpty .invalidPreparation

/-- An operation `PreparedOperation::validate` accepts. -/
structure PreparedOperation.Valid (behavior : Behavior) (op : PreparedOperation V) : Prop where
  declared : behavior.Valid
  revision : op.behaviorRevision = behavior.revision
  capability : ∃ capability,
    behavior.operations.filter (·.operationClass = op.operationClass) = [capability] ∧
      op.PermittedBy behavior capability
  expiry : op.preparedAtMilliseconds < op.expiresAtMilliseconds
  effects : 1 ≤ op.effects.length ∧ op.effects.length ≤ maximumEffects
  scopes : (op.effects.map (·.scope)).Nodup
  command : (jsonText op.command.serialize).length ≤ maximumCommandBytes
  changes : ∀ e ∈ op.effects, e.change.Valid
  units : ∀ e ∈ op.effects, ∀ domain, e.change.domain = some domain → domain.unit ∈ behavior.units
  protects : op.Protected

/-- An operation `PreparedOperation::validate_for` accepts. -/
structure PreparedOperation.ValidFor (behavior : Behavior) (identity account : Identity)
    (scopes : List EffectScope) (op : PreparedOperation V) : Prop where
  valid : op.Valid behavior
  identified : op.identity = identity
  inAccount : ∀ e ∈ op.effects, e.scope.account = account
  nonempty : scopes ≠ []
  distinct : scopes.Nodup
  requested : ∀ s ∈ scopes, s.account = account ∧ ∃ e ∈ op.effects, e.scope = s

theorem PreparedOperation.validate_ok {op : PreparedOperation V} {behavior : Behavior} {u : Unit} :
    op.validate behavior = .ok u ↔ op.Valid behavior := by
  have hm : ∀ c : OperationCapability, ¬ (op.reconciliation.any fun method => method ∉ c.reconciliation) = true ↔
      ∀ method, op.reconciliation = some method → method ∈ c.reconciliation := fun c => by
    cases op.reconciliation <;> simp
  have he : ¬ op.effects.isEmpty = true ↔ 1 ≤ op.effects.length := by
    rw [List.isEmpty_iff_length_eq_zero]
    omega
  simp only [validate, bind_ok, Behavior.validate_ok, exists_const, reject_ok, okOr_ok, discard_ok,
    discard_boundedJsonSize_ok (show maximumCommandBytes < 2 ^ 64 by decide), scanEffects_ok,
    validateProtection_ok, validateReplay_ok, not_or, not_not, ne_eq, hm, he, Int64.not_le, gt_iff_lt, Nat.not_lt]
  refine ⟨?_, fun h => ?_⟩
  · intro h
    obtain ⟨hb, hr, c, hc, ⟨hx, hn⟩, hj, ⟨_, ⟨hd, hv, hf, hu⟩, _⟩, hk, hp, hy, hq⟩ := h
    exact ⟨hb, hr, ⟨c, (find_class hb.classes).mp hc, hf, hk, hy, hq⟩, hx, hn, hd, hj, hv, hu, hp⟩
  · obtain ⟨c, hc, hp⟩ := h.capability
    exact ⟨h.declared, h.revision, c, (find_class h.declared.classes).mpr hc, ⟨h.expiry, h.effects⟩, h.command,
      ⟨_, ⟨h.scopes, h.changes, hp.fields, h.units⟩, rfl⟩, hp.protection, h.protects, hp.replay, hp.reconciliation⟩

/-- The requested scopes are accepted exactly when they are distinct scopes
of the account the effects have. -/
theorem scanRequested_ok {account : Identity} {effects requested : BTreeSet EffectScope}
    {scopes : List EffectScope} : scopes.foldlM (scanRequested account effects) .new = .ok requested ↔
      (scopes.Nodup ∧ ∀ s ∈ scopes, s.account = account ∧ s ∈ effects) ∧ BTreeSet.collect scopes = requested := by
  have hfresh : Each (fun pre s => s ∉ pre) scopes ↔ scopes.Nodup := by
    have h : Each (fun pre s => s ∉ pre.map fun s => s) scopes ↔ (scopes.map fun s => s).Nodup := each_fresh
    simpa only [List.map_id'] using h
  rw [scanRequested_guarded.foldlM_after (b := .new) .collect rfl fun pre s => by simp]
  simp only [BTreeSet.mem_collect, each_and, each_forall, hfresh, ← forall₂_and]

theorem PreparedOperation.validateFor_ok {op : PreparedOperation V} {behavior : Behavior} {identity account : Identity}
    {scopes : List EffectScope} {u : Unit} : op.validateFor behavior identity account scopes = .ok u ↔
      op.Valid behavior ∧ (op.identity = identity ∧ ∀ e ∈ op.effects, e.scope.account = account) ∧
        (scopes.Nodup ∧ ∀ s ∈ scopes, s.account = account ∧ s ∈ op.effects.map (·.scope)) ∧ scopes ≠ [] := by
  simp only [validateFor, bind_ok, validate_ok, exists_const, reject_ok, scanRequested_ok, not_or, not_exists, not_and,
    not_not, ne_eq, BTreeSet.mem_collect]
  refine and_congr_right fun _ => and_congr_right fun _ => ⟨fun h => ?_, fun h => ?_⟩
  · obtain ⟨_, ⟨hs, rfl⟩, hn⟩ := h
    exact ⟨hs, fun h => hn (BTreeSet.isEmpty_collect.mpr h)⟩
  · exact ⟨_, ⟨h.1, rfl⟩, fun he => h.2 (BTreeSet.isEmpty_collect.mp he)⟩

/-- **What a preparation must be.** `validate_for` accepts exactly the
operations its behavior declares, that carry the expected identity, keep to
the account, and include every requested scope once. -/
theorem PreparedOperation.validateFor_iff (op : PreparedOperation V) (behavior : Behavior)
    (identity account : Identity) (scopes : List EffectScope) :
    op.validateFor behavior identity account scopes = .ok () ↔
      op.ValidFor behavior identity account scopes := by
  simp only [validateFor, bind_ok, validate_ok, exists_const, reject_ok, scanRequested_ok, not_or, not_exists,
    not_and, not_not, ne_eq, BTreeSet.mem_collect, List.mem_map]
  refine ⟨?_, fun h => ⟨h.valid, ⟨h.identified, h.inAccount⟩, _, ⟨⟨h.distinct, h.requested⟩, rfl⟩, ?_⟩⟩
  · intro h
    obtain ⟨hv, ⟨hi, ha⟩, _, ⟨⟨hd, hs⟩, rfl⟩, hn⟩ := h
    exact ⟨hv, hi, ha, fun h => hn (BTreeSet.isEmpty_collect.mpr h), hd, hs⟩
  · exact fun he => h.nonempty (BTreeSet.isEmpty_collect.mp he)

end ProviderSdk
