/-
Prepared operations on the wire (`completion_wire.rs`).

An operation that its behavior accepts is decoded as it was sent, except
that a decoder takes no JSON value of more than 65536 bytes and
`Effect::validate` puts no bound on those of setters and appends.
-/
import ProviderSdk.PreparedOperation
import ProviderSdk.CompletionWire
import ProviderSdk.SampleJson

namespace ProviderSdk

open Checks Codec

variable {V : Type} [SerdeJson V]

/-! ## Effects -/

/-- The `match` on a change in `decode_effect`. -/
def decodeChange (value : V1.CompletionChange) : Except WireError (Change V) :=
  match value with
  | .setCompletion value => do
    let domain ← Domain.tryFrom (← required value.domain "setter.domain")
    let before ← Progress.tryFrom (← required value.before "setter.before")
    let after ← Progress.tryFrom (← required value.after "setter.after")
    pure (.setCompletion domain before after)
  | .mergeItems value => do
    let domain ← Domain.tryFrom (← required value.domain "merge.domain")
    let before ← itemsTryFrom (← required value.before "merge.before")
    let additions ← itemsTryFrom (← required value.additions "merge.additions")
    pure (.mergeItems domain before additions)
  | .setValue value => do
    let before ← decodeBefore (← required value.before "setter.before")
    let after ← decodeJson value.afterJson
    pure (.setValue before after)
  | .appendJson bytes => do
    let value ← decodeJson bytes
    pure (.append value)

/-- The `match` on a change in `From<Effect>`. -/
def encodeChange (value : Change V) : V1.CompletionChange :=
  match value with
  | .setCompletion domain before after => .setCompletion ⟨some domain.into, some before.into, some after.into⟩
  | .mergeItems domain before additions =>
    .mergeItems ⟨some domain.into, some (itemsInto before), some (itemsInto additions)⟩
  | .setValue before after => .setValue ⟨some before.into, encodeJson after⟩
  | .append value => .appendJson (encodeJson value)

def decodeEffect (value : V1.CompletionEffect) : Except WireError (Effect V) := do
  let scope ← EffectScope.tryFrom (← required value.scope "effect.scope")
  let group ← fromModel (Name.new value.group)
  let change ← decodeChange (← required value.change "effect.change")
  pure { scope, group, change }

def Effect.into (self : Effect V) : V1.CompletionEffect where
  scope := some self.scope.into
  group := self.group.value
  change := some (encodeChange self.change)

omit [SerdeJson V] in
/-- The JSON values a change carries. -/
def Change.json : Change V → List V
  | .setCompletion _ _ _ | .mergeItems _ _ _ => []
  | .setValue before after => before.json ++ [after]
  | .append value => [value]

/-- A valid change is read back exactly where its JSON values are. -/
theorem decodeChange_encode {c : Change V} {P : V → Prop} (hv : c.Valid)
    (h : ∀ v ∈ c.json, Returns decodeJson encodeJson (P v) v) :
    Returns decodeChange encodeChange (∀ v ∈ c.json, P v) c := by
  intro c'
  cases c with
  | setCompletion domain before after =>
    obtain ⟨hb, ha, _⟩ := hv
    simp [decodeChange, encodeChange, Change.json, Progress.tryFrom_into hb, Progress.tryFrom_into ha]
  | mergeItems domain before additions =>
    obtain ⟨hb, ha⟩ := hv
    simp [decodeChange, encodeChange, Change.json, itemsTryFrom_units hb, itemsTryFrom_units ha]
  | setValue before after =>
    have hb := decodeBefore_into fun v hv => h v (List.mem_append_left _ hv)
    have ha := h after (by simp [Change.json])
    simp only [decodeChange, encodeChange, bind_ok, required_ok, Option.some.injEq, exists_eq_left', hb _, ha _,
      pure_ok, Change.json, List.mem_append, List.mem_singleton, or_imp, forall_and, forall_eq, and_assoc,
      exists_and_left]
  | append value =>
    have hvalue := h value (by simp [Change.json])
    simp only [decodeChange, encodeChange, bind_ok, hvalue _, pure_ok, Change.json, List.mem_singleton, forall_eq,
      and_assoc, exists_and_left, exists_eq_left']

theorem decodeEffect_into {e : Effect V} {P : V → Prop} (hv : e.change.Valid)
    (h : ∀ v ∈ e.change.json, Returns decodeJson encodeJson (P v) v) :
    Returns decodeEffect Effect.into (∀ v ∈ e.change.json, P v) e := by
  intro e'
  simp only [decodeEffect, Effect.into, bind_ok, required_ok, Option.some.injEq, exists_eq_left',
    EffectScope.tryFrom_into, Except.ok.injEq, fromModel_new_value, decodeChange_encode hv h _, pure_ok, and_assoc,
    exists_and_left]

/-! ## Protection and replay -/

def decodeProtection (value : V1.CompletionProtection) : Except WireError Protection := do
  match ← required value.value "protection.value" with
  | .conditional value => do
    let groups ← decodeSet EffectGroup.tryFrom "protection.groups" value.groups
    pure (.conditional value.token groups)
  | .monotoneMerge => pure .monotoneMerge
  | .bestEffort => pure .bestEffort

def Protection.into (self : Protection) : V1.CompletionProtection where
  value := some (match self with
    | .conditional token groups => .conditional ⟨token, groups.toList.map EffectGroup.into⟩
    | .monotoneMerge => .monotoneMerge
    | .bestEffort => .bestEffort)

def decodeReplay (value : V1.CompletionReplay) : Except WireError Replay := do
  match ← required value.value "replay.value" with
  | .unsupported => pure .unsupported
  | .deduplicated value => do
    let key ← Identity.tryFrom (← required value.key "replay.key")
    let scope ← Identity.tryFrom (← required value.scope "replay.scope")
    pure (.deduplicated key scope value.validUntilMilliseconds)

def Replay.into (self : Replay) : V1.CompletionReplay where
  value := some (match self with
    | .unsupported => .unsupported
    | .deduplicated key scope validUntilMilliseconds =>
      .deduplicated ⟨some key.into, some scope.into, validUntilMilliseconds⟩)

theorem decodeProtection_into {p : Protection}
    (h : ∀ token groups, p = .conditional token groups → groups.len ≤ maximumCollectionItems) :
    decodeProtection p.into = .ok p := by
  cases p with
  | conditional token groups =>
    have hg : Returns (decodeSet EffectGroup.tryFrom "protection.groups") (fun s => s.toList.map EffectGroup.into)
        (groups.len ≤ maximumCollectionItems) groups := decodeSet_returns EffectGroup.tryFrom_into
    have hok := hg.ok (h token groups rfl)
    simp [decodeProtection, Protection.into, hok]
  | monotoneMerge => rfl
  | bestEffort => rfl

@[simp] theorem decodeReplay_into (r : Replay) : decodeReplay r.into = .ok r := by
  cases r with
  | unsupported => rfl
  | deduplicated key scope validUntilMilliseconds => simp [decodeReplay, Replay.into]

/-! ## Operations -/

def decodePrepared (behavior : Behavior) (value : V1.PreparedCompletionOperation) :
    Except WireError (PreparedOperation V) := do
  reject (value.effects.length > maximumEffects) .limitExceeded
  let command ← required value.command "operation.command"
  let identity ← Identity.tryFrom (← required value.identity "operation.identity")
  let operationClass ← fromModel (Name.new value.operationClass)
  let effects ← value.effects.mapM decodeEffect
  let protection ← decodeProtection (← required value.protection "operation.protection")
  let replay ← decodeReplay (← required value.replay "operation.replay")
  let reconciliation ← fromModel (value.reconciliation.mapM Name.new)
  let method ← fromModel (Name.new command.method)
  let parameters ← decodeJson command.parametersJson
  let decoded : PreparedOperation V := {
    identity, operationClass, behaviorRevision := value.behaviorRevision
    preparedAtMilliseconds := value.preparedAtMilliseconds, expiresAtMilliseconds := value.expiresAtMilliseconds
    effects, protection, replay, reconciliation, command := { method, parameters } }
  fromOperation (decoded.validate behavior)
  pure decoded

def PreparedOperation.into (self : PreparedOperation V) : V1.PreparedCompletionOperation where
  identity := some self.identity.into
  operationClass := self.operationClass.value
  behaviorRevision := self.behaviorRevision
  preparedAtMilliseconds := self.preparedAtMilliseconds
  expiresAtMilliseconds := self.expiresAtMilliseconds
  effects := self.effects.map Effect.into
  protection := some self.protection.into
  replay := some self.replay.into
  reconciliation := self.reconciliation.map (·.value)
  command := some { method := self.command.method.value, parametersJson := encodeJson self.command.parameters }

/-- The groups a valid operation protects are at most one an effect. -/
theorem PreparedOperation.Valid.groups {behavior : Behavior} {op : PreparedOperation V} (h : op.Valid behavior)
    {token : String} {groups : BTreeSet EffectGroup} (hp : op.protection = .conditional token groups) :
    groups.len ≤ maximumCollectionItems := by
  have hprotects := h.protects
  rw [Protected, hp] at hprotects
  have hsub : ∀ g ∈ groups, g ∈ op.effects.map (·.effectGroup) := by
    intro g hg
    obtain ⟨e, he, rfl⟩ := (hprotects.2 g).mp hg
    exact List.mem_map_of_mem he
  have hlen := BTreeSet.len_le_of_subset hsub
  rw [List.length_map] at hlen
  exact Nat.le_trans hlen (Nat.le_trans h.effects.2 (by decide))

/-- An operation its behavior accepts is read back exactly where the JSON
values of its effects are. -/
theorem decodePrepared_into {behavior : Behavior} {op : PreparedOperation V} {P : V → Prop}
    (hv : op.Valid behavior) (hcommand : Returns decodeJson encodeJson True op.command.parameters)
    (h : ∀ e ∈ op.effects, ∀ v ∈ e.change.json, Returns decodeJson encodeJson (P v) v) :
    Returns (decodePrepared behavior) PreparedOperation.into (∀ e ∈ op.effects, ∀ v ∈ e.change.json, P v) op := by
  have hbound : op.effects.length ≤ maximumEffects := hv.effects.2
  have heffects := returns_list fun e he => decodeEffect_into (hv.changes e he) (h e he)
  have hprotection := decodeProtection_into fun _ _ => hv.groups
  have hreconciliation : fromModel ((op.reconciliation.map (·.value)).mapM Name.new) = .ok op.reconciliation := by
    cases op.reconciliation <;> simp
  have hvalidate : op.validate behavior = .ok () := PreparedOperation.validate_ok.mpr hv
  intro d
  simp only [decodePrepared, PreparedOperation.into, bind_ok, reject_ok, List.length_map, gt_iff_lt, Nat.not_lt, hbound,
    exists_const, true_and, required_ok, Option.some.injEq, exists_eq_left', Identity.tryFrom_into, Except.ok.injEq,
    fromModel_new_value, heffects _, hprotection, decodeReplay_into, hreconciliation, hcommand _, pure_ok,
    and_assoc, exists_and_left, fromOperation_ok]
  refine and_congr_right fun _ => ⟨fun h => ?_, fun he => ⟨(), hvalidate, he⟩⟩
  obtain ⟨_, _, he⟩ := h
  exact he

omit [SerdeJson V] in
/-- The JSON values an operation carries. -/
def PreparedOperation.json (op : PreparedOperation V) : List V :=
  op.command.parameters :: op.effects.flatMap (·.change.json)

/-- A valid command is short, and so are its parameters. -/
theorem PreparedOperation.Valid.parameters {behavior : Behavior} {op : PreparedOperation V}
    (h : op.Valid behavior) (hc : CompactJson V) :
    (SerdeJson.toString op.command.parameters).length ≤ maximumJsonBytes := by
  have hm : ("parameters", Serialize.value op.command.parameters) ∈
      [("method", Serialize.str op.command.method.value), ("parameters", .value op.command.parameters)] := by simp
  have hfield := hc.field_le hm
  rw [hc.toString]
  exact Nat.le_trans hfield h.command

/-- What an operation its behavior accepts is decoded as, when `from_slice`
reads its values back. -/
theorem PreparedOperation.Valid.returns {behavior : Behavior} {op : PreparedOperation V} (hv : op.Valid behavior)
    (hc : CompactJson V) (hread : ∀ v ∈ op.json, SerdeJson.fromSlice (SerdeJson.toString v) = some v) :
    Returns (decodePrepared behavior) PreparedOperation.into
      (∀ e ∈ op.effects, ∀ v ∈ e.change.json, (SerdeJson.toString v).length ≤ maximumJsonBytes) op := by
  have hcommand : Returns decodeJson encodeJson True op.command.parameters :=
    (decodeJson_returns (hread _ (by simp [PreparedOperation.json]))).congr (iff_true_intro (hv.parameters hc))
  refine decodePrepared_into hv hcommand fun e he v hv => decodeJson_returns (hread v ?_)
  exact List.mem_cons_of_mem _ (List.mem_flatMap.mpr ⟨e, he, hv⟩)

/-- **Which operations come back from the wire.** An operation that its
behavior accepts is decoded as it was sent exactly where no JSON value of an
effect takes more than 65536 bytes. -/
theorem decodePrepared_into_iff {behavior : Behavior} {op : PreparedOperation V} (hc : CompactJson V)
    (hv : op.validate behavior = .ok ())
    (hread : ∀ v ∈ op.json, SerdeJson.fromSlice (SerdeJson.toString v) = some v) :
    decodePrepared behavior op.into = .ok op ↔
      ∀ e ∈ op.effects, ∀ v ∈ e.change.json, (SerdeJson.toString v).length ≤ 65536 := by
  have hreturns := (PreparedOperation.validate_ok.mp hv).returns hc hread
  exact (hreturns op).trans (and_iff_left rfl)

/-! ## An operation that is lost -/

def appendBehavior : Behavior where
  revision := "r1"
  subjectRoles := .new
  units := .new
  operations := [⟨.sample, .collect [.sample], .collect [.bestEffort], false, .new⟩]

def appendOperation (value : SampleJson) : PreparedOperation SampleJson where
  identity := .sample
  operationClass := .sample
  behaviorRevision := "r1"
  preparedAtMilliseconds := 0
  expiresAtMilliseconds := 1
  effects := [⟨⟨.sample, .sample, .sample⟩, .sample, .append value⟩]
  protection := .bestEffort
  replay := .unsupported
  reconciliation := none
  command := ⟨.sample, .text 0⟩

theorem appendOperation_read {value : SampleJson} (h : value.depth < 128) :
    ∀ v ∈ (appendOperation value).json, SerdeJson.fromSlice (SerdeJson.toString v) = some v := by
  intro v hv
  have hv' : v ∈ [.text 0, value] := hv
  rcases List.mem_pair.mp hv' with rfl | rfl
  · exact SampleJson.recursionLimit.shallow _ (by decide)
  · exact SampleJson.recursionLimit.shallow _ h

/-- A short value comes back. -/
theorem appendOperation_returns :
    decodePrepared appendBehavior (appendOperation (.text 3)).into = .ok (appendOperation (.text 3)) :=
  (decodePrepared_into_iff SampleJson.compact rfl (appendOperation_read (by decide))).mpr (by decide)

/-- A string of 65535 letters takes 65537 bytes: the operation is accepted,
and decoded as nothing. -/
theorem appendOperation_lost :
    let op := appendOperation (.text 65535)
    op.validate appendBehavior = .ok () ∧
      (∀ v ∈ op.json, SerdeJson.fromSlice (SerdeJson.toString v) = some v) ∧
      ∀ decoded : PreparedOperation SampleJson, decodePrepared appendBehavior op.into ≠ .ok decoded := by
  have hread := @appendOperation_read (.text 65535) (by decide)
  have hvalid : (appendOperation (.text 65535)).validate appendBehavior = .ok () := rfl
  refine ⟨hvalid, hread, fun decoded hd => ?_⟩
  have hreturns := (PreparedOperation.validate_ok.mp hvalid).returns SampleJson.compact hread
  have hshort := ((hreturns decoded).mp hd).1 _ (List.mem_singleton_self _) _ (List.mem_singleton_self _)
  have hlen : (SampleJson.text 65535).print.length = 65537 := SampleJson.length_print_text 65535
  have hle : (SampleJson.text 65535).print.length ≤ 65536 := hshort
  omega

end ProviderSdk
