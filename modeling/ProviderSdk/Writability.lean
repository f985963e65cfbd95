/-
What is declared writable can be written.

A library and a state declare fields writable, by checks of their own; an
operation is prepared under others. Here is an operation for every such
field: it merges no items into a domain of a declared unit, so that it is
accepted under every protection a capability may ask for.
-/
import ProviderSdk.CompletionBatch
import ProviderSdk.Discovery
import ProviderSdk.PreparedOperation

namespace ProviderSdk

open Checks

variable {V : Type}

/-! ## An operation that changes nothing -/

/-- A protection of each kind, over one group. -/
def ProtectionKind.claim (group : EffectGroup) : ProtectionKind → Protection
  | .conditional => .conditional "token" (.collect [group])
  | .monotoneMerge => .monotoneMerge
  | .bestEffort => .bestEffort

/-- The effect of merging no items into `domain`. -/
def Effect.emptyMerge (scope : EffectScope) (domain : Domain) : Effect V where
  scope
  group := scope.field
  change := .mergeItems domain .new .new

/-- The operation of a capability that has this one effect. -/
def OperationCapability.emptyMerge (capability : OperationCapability) (identity : Identity) (revision : String)
    (kind : ProtectionKind) (scope : EffectScope) (domain : Domain) (parameters : V) : PreparedOperation V where
  identity
  operationClass := capability.operationClass
  behaviorRevision := revision
  preparedAtMilliseconds := 0
  expiresAtMilliseconds := 1
  effects := [.emptyMerge scope domain]
  protection := kind.claim (Effect.emptyMerge (V := V) scope domain).effectGroup
  replay := .unsupported
  reconciliation := none
  command := ⟨.sample, parameters⟩

/-- An empty domain of a unit. -/
def Domain.ofUnit (unit : Name) : Domain where
  identity := .sample
  revision := "revision"
  unit
  ordering := .ordered
  units := []
  closed := false
  ok := ⟨by decide, by decide, .nil, nofun⟩

@[simp] theorem ProtectionKind.kind_claim (k : ProtectionKind) (g : EffectGroup) : (k.claim g).kind = k := by
  cases k <;> rfl

section

variable {behavior : Behavior} {capability : OperationCapability} {identity : Identity} {kind : ProtectionKind}
  {scope : EffectScope} {domain : Domain} {parameters : V}

/-- Any protection the operation claims is one it has. -/
theorem OperationCapability.emptyMerge_protected {revision : String} :
    (capability.emptyMerge identity revision kind scope domain parameters).Protected := by
  cases kind with
  | conditional =>
    refine ⟨by decide, fun g => ?_⟩
    simp [emptyMerge, Effect.emptyMerge, Effect.effectGroup]
  | monotoneMerge =>
    intro e he
    rw [List.mem_singleton.mp he]
    exact ⟨domain, .new, .new, rfl⟩
  | bestEffort => exact trivial

variable [SerdeJson V]

/-- The command of the operation, written out. -/
theorem emptyCommand_fits (hc : CompactJson V) (hs : ScalarJson V)
    (hnull : jsonText (.value parameters) = [0x6E, 0x75, 0x6C, 0x6C]) :
    (jsonText (Command.mk .sample parameters).serialize).length ≤ maximumCommandBytes := by
  rw [Command.serialize, hc.struct]
  simp only [List.map_cons, List.map_nil, hs.str, hnull]
  decide

theorem OperationCapability.emptyMerge_valid (hb : behavior.Valid) (hc : capability ∈ behavior.operations)
    (hk : kind ∈ capability.protection) (hf : scope.field ∈ capability.effectFields)
    (hu : domain.unit ∈ behavior.units)
    (hj : (jsonText (Command.mk .sample parameters).serialize).length ≤ maximumCommandBytes) :
    (capability.emptyMerge identity behavior.revision kind scope domain parameters).Valid behavior where
  declared := hb
  revision := rfl
  capability := by
    refine ⟨capability, (filter_key hb.classes).mpr ⟨hc, rfl⟩, ?_, ?_, nofun, nofun⟩
    · intro e he
      rw [List.mem_singleton.mp he]
      exact hf
    · rwa [emptyMerge, ProtectionKind.kind_claim]
  expiry := show (0 : Int64) < 1 by decide
  effects := show 1 ≤ 1 ∧ 1 ≤ maximumEffects by decide
  scopes := List.nodup_singleton _
  command := hj
  changes e he := by
    rw [List.mem_singleton.mp he]
    exact ⟨fun u hu => absurd hu BTreeSet.not_mem_new, fun u hu => absurd hu BTreeSet.not_mem_new⟩
  units e he d hd := by
    rw [List.mem_singleton.mp he] at hd
    cases hd
    exact hu
  protects := emptyMerge_protected

/-- A scope of a declared field has an operation, given a domain of a
declared unit and parameters that are written as `null`. -/
theorem Behavior.Valid.prepares_null (hb : behavior.Valid) (hc : CompactJson V) (hs : ScalarJson V)
    (identity : Identity) (scope : EffectScope) (hf : ∃ o ∈ behavior.operations, scope.field ∈ o.effectFields)
    (domain : Domain) (hu : domain.unit ∈ behavior.units)
    (hnull : jsonText (.value parameters) = [0x6E, 0x75, 0x6C, 0x6C]) :
    ∃ op : PreparedOperation V, op.effects = [.emptyMerge scope domain] ∧ op.command.parameters = parameters ∧
      op.validateFor behavior identity scope.account [scope] = .ok () := by
  obtain ⟨capability, hm, hf⟩ := hf
  obtain ⟨kind, hk⟩ := BTreeSet.not_isEmpty.mp (Bool.eq_false_iff.mp (hb.declares capability hm).2)
  refine ⟨capability.emptyMerge identity behavior.revision kind scope domain parameters, rfl, rfl,
    PreparedOperation.validateFor_ok.mpr ?_⟩
  refine ⟨OperationCapability.emptyMerge_valid hb hm hk hf hu (emptyCommand_fits hc hs hnull), ⟨rfl, fun e he => ?_⟩,
    ⟨List.nodup_singleton _, fun s hs => ?_⟩, List.cons_ne_nil _ _⟩
  · rw [List.mem_singleton.mp he]
    rfl
  · rw [List.mem_singleton.mp hs]
    exact ⟨rfl, List.mem_singleton_self _⟩

theorem Behavior.Valid.prepares (hb : behavior.Valid) (hc : CompactJson V) (hs : ScalarJson V)
    (hf : ∃ o ∈ behavior.operations, scope.field ∈ o.effectFields) (hu : domain.unit ∈ behavior.units)
    (identity : Identity) :
    ∃ op : PreparedOperation V, op.validateFor behavior identity scope.account [scope] = .ok () := by
  obtain ⟨parameters, hnull⟩ := hs.null
  obtain ⟨op, _, _, hop⟩ := hb.prepares_null hc hs identity scope hf domain hu hnull
  exact ⟨op, hop⟩

/-! ## What is declared -/

/-- The library declares a unit for each of its fields. -/
theorem Library.Valid.prepares {library : Library} {account : Identity} (hl : library.Valid account)
    (hc : CompactJson V) (hs : ScalarJson V) {f : Field} (hm : f ∈ library.fields) (hw : f.writable = true)
    (subject identity : Identity) : ∃ op : PreparedOperation V,
      op.validateFor library.behavior identity account [⟨account, subject, f.field⟩] = .ok () := by
  have hf := hl.fields f hm
  obtain ⟨unit, hunit⟩ := hf.nonempty
  have hu : (Domain.ofUnit unit).unit ∈ library.behavior.units := hf.units unit hunit
  have ho : ∃ o ∈ library.behavior.operations, (EffectScope.mk account subject f.field).field ∈ o.effectFields :=
    hf.writable hw
  exact hl.behavior.prepares hc hs ho hu identity

/-- A state shows a domain of each of its subjects. -/
theorem State.Valid.prepares {s : State V} {account : Identity} {requested : List Identity}
    (hv : s.Valid account requested behavior) (hc : CompactJson V) (hs : ScalarJson V) {a : ResourceAccess}
    (hm : a ∈ s.access) (hw : a.writable = true) (identity : Identity) : ∃ op : PreparedOperation V,
      op.validateFor behavior identity account [a.scope] = .ok () := by
  have ha := hv.coherent.access a hm
  obtain ⟨o, ho, -⟩ := hv.coherent.observed a.scope.subject ha.listed
  have hu : o.domain.unit ∈ behavior.units := (hv.coherent.observations o ho).unit
  have h := hv.declared.prepares hc hs (ha.valid.writable hw) hu identity
  rwa [ha.inAccount] at h

/-- **Writable is never vacuous.** Whatever a library or a state declares
writable, some operation on just that passes `validate_for`, be it the one
that merges no items into it. -/
theorem writable_prepares (hc : CompactJson V) (hs : ScalarJson V) (account : Identity) (behavior : Behavior)
    (identity : Identity) :
    (∀ library : Library, library.behavior = behavior → library.validate account = .ok () →
      ∀ f ∈ library.fields, f.writable = true → ∀ subject : Identity, ∃ op : PreparedOperation V,
        op.validateFor behavior identity account [⟨account, subject, f.field⟩] = .ok ()) ∧
    ∀ (s : State V) (requested : List Identity), s.validate account requested behavior = .ok () →
      ∀ a ∈ s.access, a.writable = true → a.scope.account = account ∧ ∃ op : PreparedOperation V,
        op.validateFor behavior identity account [⟨account, a.scope.subject, a.scope.field⟩] = .ok () := by
  refine ⟨fun library hb hl f hm hw subject => ?_, fun s requested hv a hm hw => ?_⟩
  · subst hb
    exact (Library.validate_ok.mp hl).prepares hc hs hm hw subject identity
  · have hv := State.validate_ok.mp hv
    have ha := (hv.coherent.access a hm).inAccount
    obtain ⟨op, hop⟩ := hv.prepares hc hs hm hw identity
    subst ha
    exact ⟨rfl, op, hop⟩

end

/-- One operation, for merges only, and one writable field of it. -/
def mergeLibrary : Library where
  account := .sample
  behavior :=
    { revision := "r1", subjectRoles := .collect [.sample], units := .collect [.sample]
      operations := [⟨.sample, .collect [.sample], .collect [.monotoneMerge], false, .new⟩] }
  fields := [⟨.sample, .sample, .collect [.sample], false, true⟩]

/-- A state of one subject, its field writable. -/
def writableState : State SampleJson :=
  { sampleState .sample with
    access := [⟨⟨.sample, .sample, .sample⟩, .sample, ⟨.sample, .sample, .sample⟩, "r1", false, true⟩] }

theorem mergeLibrary_prepares :
    (∃ op : PreparedOperation SampleJson,
      op.validateFor mergeLibrary.behavior otherIdentity .sample [⟨.sample, otherIdentity, .sample⟩] = .ok ()) ∧
    ∃ op : PreparedOperation SampleJson,
      op.validateFor mergeLibrary.behavior otherIdentity .sample [⟨.sample, .sample, .sample⟩] = .ok () := by
  have h := writable_prepares SampleJson.compact SampleJson.scalars .sample mergeLibrary.behavior otherIdentity
  have hs : writableState.validate .sample [] mergeLibrary.behavior = .ok () := rfl
  exact ⟨h.1 mergeLibrary rfl rfl _ (List.mem_singleton_self _) rfl otherIdentity,
    (h.2 _ _ hs _ (List.mem_singleton_self _) rfl).2⟩

end ProviderSdk
