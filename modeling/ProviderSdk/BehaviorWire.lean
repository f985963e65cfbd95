/-
How a behavior travels (`completion_wire.rs`).

A behavior is sent as lists, and decoded as sets. Two messages declare one
behavior exactly where they differ in the order of those lists alone, so
nothing declared is dropped, merged or made up on the way.
-/
import ProviderSdk.CompletionWire

namespace ProviderSdk

open Checks Codec

/-! ## Capabilities -/

def decodeProtectionKind (value : Int32) : Except WireError ProtectionKind :=
  match V1.CompletionProtectionKind.tryFrom value with
  | some .conditional => pure .conditional
  | some .monotoneMerge => pure .monotoneMerge
  | some .bestEffort => pure .bestEffort
  | _ => throw (.invalidEnum "capability.protection")

/-- The `match` on a protection in `From<Behavior>`. -/
def encodeProtectionKind (kind : ProtectionKind) : Int32 :=
  match kind with
  | .conditional => V1.CompletionProtectionKind.number .conditional
  | .monotoneMerge => V1.CompletionProtectionKind.number .monotoneMerge
  | .bestEffort => V1.CompletionProtectionKind.number .bestEffort

/-- The body of the map over the operations in `Behavior::try_from`. -/
def OperationCapability.tryFrom (capability : V1.CompletionOperationCapability) :
    Except WireError OperationCapability := do
  let operationClass ← fromModel (Name.new capability.operationClass)
  let effectFields ← decodeNames "capability.effect_fields" capability.effectFields
  let protection ← decodeSet decodeProtectionKind "capability.protection" capability.protection
  let reconciliation ← decodeNames "capability.reconciliation" capability.reconciliation
  pure { operationClass, effectFields, protection, deduplication := capability.deduplication, reconciliation }

def OperationCapability.into (self : OperationCapability) : V1.CompletionOperationCapability where
  operationClass := self.operationClass.value
  effectFields := self.effectFields.toList.map (·.value)
  protection := self.protection.toList.map encodeProtectionKind
  deduplication := self.deduplication
  reconciliation := self.reconciliation.toList.map (·.value)

/-- The same capability, its lists in another order. -/
structure V1.CompletionOperationCapability.Reorders (w w' : V1.CompletionOperationCapability) : Prop where
  operationClass : w.operationClass = w'.operationClass
  effectFields : w.effectFields.Perm w'.effectFields
  protection : w.protection.Perm w'.protection
  deduplication : w.deduplication = w'.deduplication
  reconciliation : w.reconciliation.Perm w'.reconciliation

/-- A capability whose sets are no larger than a collection may be. -/
structure OperationCapability.Portable (o : OperationCapability) : Prop where
  effectFields : o.effectFields.len ≤ maximumCollectionItems
  protection : o.protection.len ≤ maximumCollectionItems
  reconciliation : o.reconciliation.len ≤ maximumCollectionItems

theorem decodeProtectionKind_encode (k : ProtectionKind) : decodeProtectionKind (encodeProtectionKind k) = .ok k := by
  cases k <;> rfl

theorem decodeProtectionKind_restores : Restores decodeProtectionKind encodeProtectionKind where
  of_ok h := by
    unfold decodeProtectionKind at h
    split at h <;> cases h <;> rename_i hk <;> exact V1.CompletionProtectionKind.tryFrom_eq_some.mp hk

theorem OperationCapability.tryFrom_ok {w : V1.CompletionOperationCapability} {o : OperationCapability} :
    OperationCapability.tryFrom w = .ok o ↔ o.operationClass.value = w.operationClass ∧
      decodeNames "capability.effect_fields" w.effectFields = .ok o.effectFields ∧
      decodeSet decodeProtectionKind "capability.protection" w.protection = .ok o.protection ∧
      o.deduplication = w.deduplication ∧
      decodeNames "capability.reconciliation" w.reconciliation = .ok o.reconciliation := by
  simp only [tryFrom, bind_ok, fromModel_ok, Name.new_ok, pure_ok]
  refine ⟨fun h => ?_, fun h => ?_⟩
  · obtain ⟨c, hc, f, hf, p, hp, r, hr, he⟩ := h
    subst he
    exact ⟨hc, hf, hp, rfl, hr⟩
  · obtain ⟨hc, hf, hp, hd, hr⟩ := h
    exact ⟨_, hc, _, hf, _, hp, _, hr, by rw [← hd]⟩

theorem OperationCapability.tryFrom_respects :
    Respects OperationCapability.tryFrom V1.CompletionOperationCapability.Reorders where
  ok {w w' o} h hd := by
    rw [tryFrom_ok] at hd ⊢
    obtain ⟨hc, hf, hp, hdup, hr⟩ := hd
    exact ⟨hc.trans h.operationClass, decodeNames_respects.ok h.effectFields hf,
      decodeSet_respects.ok h.protection hp, hdup.trans h.deduplication,
      decodeNames_respects.ok h.reconciliation hr⟩

theorem OperationCapability.tryFrom_determines :
    Determines OperationCapability.tryFrom V1.CompletionOperationCapability.Reorders where
  rel {w w' o} hd hd' := by
    rw [tryFrom_ok] at hd hd'
    obtain ⟨hc, hf, hp, hdup, hr⟩ := hd
    obtain ⟨hc', hf', hp', hdup', hr'⟩ := hd'
    exact ⟨hc.symm.trans hc', decodeNames_determines.rel hf hf',
      (decodeSet_determines decodeProtectionKind_restores).rel hp hp', hdup.symm.trans hdup',
      decodeNames_determines.rel hr hr'⟩

theorem OperationCapability.tryFrom_yields : Yields OperationCapability.tryFrom OperationCapability.Portable where
  of_ok hd := by
    obtain ⟨_, hf, hp, _, hr⟩ := tryFrom_ok.mp hd
    exact ⟨decodeNames_yields.of_ok hf, decodeSet_yields.of_ok hp, decodeNames_yields.of_ok hr⟩

theorem OperationCapability.tryFrom_into {o : OperationCapability} (h : o.Portable) :
    OperationCapability.tryFrom o.into = .ok o :=
  tryFrom_ok.mpr ⟨rfl, decodeNames_encode.mpr ⟨h.effectFields, rfl⟩,
    (decodeSet_returns decodeProtectionKind_encode).ok h.protection, rfl,
    decodeNames_encode.mpr ⟨h.reconciliation, rfl⟩⟩

/-! ## Behaviors -/

def Behavior.tryFrom (value : V1.CompletionBehavior) : Except WireError Behavior := do
  reject (value.operations.length > maximumEffects) .limitExceeded
  let operations ← value.operations.mapM OperationCapability.tryFrom
  let subjectRoles ← decodeNames "behavior.subject_roles" value.subjectRoles
  let units ← decodeNames "behavior.units" value.units
  let decoded : Behavior := { revision := value.revision, subjectRoles, units, operations }
  fromOperation decoded.validate
  pure decoded

def Behavior.into (self : Behavior) : V1.CompletionBehavior where
  revision := self.revision
  subjectRoles := self.subjectRoles.toList.map (·.value)
  units := self.units.toList.map (·.value)
  operations := self.operations.map OperationCapability.into

/-- The same behavior: its operations in their order, its other lists and
theirs in another. -/
structure V1.CompletionBehavior.Reorders (w w' : V1.CompletionBehavior) : Prop where
  revision : w.revision = w'.revision
  subjectRoles : w.subjectRoles.Perm w'.subjectRoles
  units : w.units.Perm w'.units
  operations : List.Forall₂ V1.CompletionOperationCapability.Reorders w.operations w'.operations

theorem Behavior.tryFrom_ok {w : V1.CompletionBehavior} {b : Behavior} :
    Behavior.tryFrom w = .ok b ↔ b.revision = w.revision ∧
      w.operations.mapM OperationCapability.tryFrom = .ok b.operations ∧
      decodeNames "behavior.subject_roles" w.subjectRoles = .ok b.subjectRoles ∧
      decodeNames "behavior.units" w.units = .ok b.units ∧ b.Valid := by
  simp only [tryFrom, bind_ok, reject_ok, gt_iff_lt, Nat.not_lt, exists_const, fromOperation_ok, validate_ok, pure_ok]
  refine ⟨fun h => ?_, fun h => ?_⟩
  · obtain ⟨_, ops, ho, roles, hr, units, hu, hv, he⟩ := h
    subst he
    exact ⟨rfl, ho, hr, hu, hv⟩
  · obtain ⟨he, ho, hr, hu, hv⟩ := h
    refine ⟨?_, _, ho, _, hr, _, hu, ?_⟩
    · rw [(mapM_ok.mp ho).length_eq]
      exact hv.bounded
    · rw [← he]
      exact ⟨hv, rfl⟩

theorem Behavior.tryFrom_respects : Respects Behavior.tryFrom V1.CompletionBehavior.Reorders where
  ok {w w' b} h hd := by
    rw [tryFrom_ok] at hd ⊢
    obtain ⟨he, ho, hr, hu, hv⟩ := hd
    exact ⟨he.trans h.revision, (respects_list OperationCapability.tryFrom_respects).ok h.operations ho,
      decodeNames_respects.ok h.subjectRoles hr, decodeNames_respects.ok h.units hu, hv⟩

theorem Behavior.tryFrom_determines : Determines Behavior.tryFrom V1.CompletionBehavior.Reorders where
  rel {w w' b} hd hd' := by
    rw [tryFrom_ok] at hd hd'
    obtain ⟨he, ho, hr, hu, _⟩ := hd
    obtain ⟨he', ho', hr', hu', _⟩ := hd'
    exact ⟨he.symm.trans he', decodeNames_determines.rel hr hr', decodeNames_determines.rel hu hu',
      (determines_list OperationCapability.tryFrom_determines).rel ho ho'⟩

/-- What was decoded once is decoded again. -/
theorem Behavior.tryFrom_into {w : V1.CompletionBehavior} {b : Behavior} (h : Behavior.tryFrom w = .ok b) :
    Behavior.tryFrom b.into = .ok b := by
  rw [tryFrom_ok] at h ⊢
  obtain ⟨_, ho, hr, hu, hv⟩ := h
  have hoperations : (b.operations.map OperationCapability.into).mapM OperationCapability.tryFrom =
      .ok b.operations := by
    rw [mapM_ok, List.forall₂_map_left_iff, List.forall₂_same]
    exact fun o hm => OperationCapability.tryFrom_into ((yields_list OperationCapability.tryFrom_yields).of_ok ho o hm)
  exact ⟨rfl, hoperations, decodeNames_encode.mpr ⟨decodeNames_yields.of_ok hr, rfl⟩,
    decodeNames_encode.mpr ⟨decodeNames_yields.of_ok hu, rfl⟩, hv⟩

/-- **What a decoded behavior remembers of its message.** It is decoded again
from what it is encoded to, which says what the message said; and two
messages are one behavior exactly where only the order of their lists of
roles, units, fields, protections and methods differs. -/
theorem Behavior.tryFrom_eq_iff {w w' : V1.CompletionBehavior} {b b' : Behavior} (h : Behavior.tryFrom w = .ok b)
    (h' : Behavior.tryFrom w' = .ok b') :
    Behavior.tryFrom b.into = .ok b ∧ w.Reorders b.into ∧ (b = b' ↔ w.Reorders w') :=
  ⟨tryFrom_into h, tryFrom_determines.rel h (tryFrom_into h), tryFrom_respects.eq_iff tryFrom_determines h h'⟩

/-- Two units, declared in either order. -/
def unitsBehavior (units : List String) : V1.CompletionBehavior where
  revision := "r1"
  subjectRoles := []
  units
  operations := [⟨"operation:set", ["state:completion"], [3, 1], false, []⟩]

theorem unitsBehavior_reordered :
    ∃ b, Behavior.tryFrom (unitsBehavior ["unit:a", "unit:b"]) = .ok b ∧
      Behavior.tryFrom (unitsBehavior ["unit:b", "unit:a"]) = .ok b := by
  have haccepted : (Behavior.tryFrom (unitsBehavior ["unit:a", "unit:b"])).isOk = true := by decide +kernel
  have haccepted' : (Behavior.tryFrom (unitsBehavior ["unit:b", "unit:a"])).isOk = true := by decide +kernel
  obtain ⟨b, h⟩ := isOk_iff.mp haccepted
  obtain ⟨b', h'⟩ := isOk_iff.mp haccepted'
  have he := (Behavior.tryFrom_eq_iff h h').2.2.mpr
    ⟨rfl, .refl _, .swap _ _ _, .cons ⟨rfl, .refl _, .refl _, rfl, .refl _⟩ .nil⟩
  exact ⟨b, h, he ▸ h'⟩

end ProviderSdk
