/-
What a decoded intention or operation remembers of its message
(`completion_wire.rs`).

A domain forgets the order of its units if it is unordered, progress and
protection forget that of their items and groups, and JSON is read for what
it means. Nothing else of a message is lost: two messages are decoded as one
operation exactly where they differ in these alone.
-/
import ProviderSdk.CanonicalDomain
import ProviderSdk.CanonicalRead
import ProviderSdk.Intention
import ProviderSdk.PreparedWire

namespace ProviderSdk

open Checks Codec

/-! ## The same message -/

namespace V1

def CompletionProgress.Reorders (w w' : CompletionProgress) : Prop :=
  Option.Rel CompletionProgressValue.Reorders w.value w'.value

def CompletionItems.Reorders (w w' : CompletionItems) : Prop := w.completed.Perm w'.completed

/-- The same intention, but for the order of what has none. -/
structure CompletionIntention.Reorders (w w' : CompletionIntention) : Prop where
  scope : w.scope = w'.scope
  domain : Option.Rel CompletionDomain.Reorders w.domain w'.domain
  baseline : Option.Rel CompletionProgress.Reorders w.baseline w'.baseline
  desired : Option.Rel CompletionProgress.Reorders w.desired w'.desired

inductive CompletionProtectionValue.Reorders : CompletionProtectionValue → CompletionProtectionValue → Prop where
  | same (value : CompletionProtectionValue) : Reorders value value
  | conditional {token : String} {groups groups' : List CompletionEffectGroup} (h : groups.Perm groups') :
    Reorders (.conditional ⟨token, groups⟩) (.conditional ⟨token, groups'⟩)

def CompletionProtection.Reorders (w w' : CompletionProtection) : Prop :=
  Option.Rel CompletionProtectionValue.Reorders w.value w'.value

end V1

section

variable (V : Type) [SerdeJson V]

/-- Two texts of one JSON value. -/
structure SameJson (bytes bytes' : List UInt8) : Prop where
  short : bytes'.length ≤ maximumJsonBytes
  reads : SerdeJson.fromSlice (V := V) bytes' = SerdeJson.fromSlice bytes

namespace V1

inductive CompletionBeforeValueKind.Means : CompletionBeforeValueKind → CompletionBeforeValueKind → Prop where
  | same (value : CompletionBeforeValueKind) : Means value value
  | knownJson {bytes bytes' : List UInt8} (h : SameJson V bytes bytes') : Means (.knownJson bytes) (.knownJson bytes')

def CompletionBeforeValue.Means (w w' : CompletionBeforeValue) : Prop :=
  Option.Rel (CompletionBeforeValueKind.Means V) w.value w'.value

inductive CompletionChange.Reorders : CompletionChange → CompletionChange → Prop where
  | setCompletion {w w' : CompletionSetter} (hd : Option.Rel CompletionDomain.Reorders w.domain w'.domain)
    (hb : Option.Rel CompletionProgress.Reorders w.before w'.before)
    (ha : Option.Rel CompletionProgress.Reorders w.after w'.after) : Reorders (.setCompletion w) (.setCompletion w')
  | mergeItems {w w' : CompletionMerge} (hd : Option.Rel CompletionDomain.Reorders w.domain w'.domain)
    (hb : Option.Rel CompletionItems.Reorders w.before w'.before)
    (ha : Option.Rel CompletionItems.Reorders w.additions w'.additions) : Reorders (.mergeItems w) (.mergeItems w')
  | setValue {w w' : CompletionValueSetter} (hb : Option.Rel (CompletionBeforeValue.Means V) w.before w'.before)
    (ha : SameJson V w.afterJson w'.afterJson) : Reorders (.setValue w) (.setValue w')
  | appendJson {bytes bytes' : List UInt8} (h : SameJson V bytes bytes') :
    Reorders (.appendJson bytes) (.appendJson bytes')

structure CompletionEffect.Reorders (w w' : CompletionEffect) : Prop where
  scope : w.scope = w'.scope
  group : w.group = w'.group
  change : Option.Rel (CompletionChange.Reorders V) w.change w'.change

structure CompletionCommand.Means (w w' : CompletionCommand) : Prop where
  method : w.method = w'.method
  parameters : SameJson V w.parametersJson w'.parametersJson

/-- The same operation, its effects in their order, but for the order of what
has none and the spelling of JSON. -/
structure PreparedCompletionOperation.Reorders (w w' : PreparedCompletionOperation) : Prop where
  identity : w.identity = w'.identity
  operationClass : w.operationClass = w'.operationClass
  behaviorRevision : w.behaviorRevision = w'.behaviorRevision
  prepared : w.preparedAtMilliseconds = w'.preparedAtMilliseconds
  expires : w.expiresAtMilliseconds = w'.expiresAtMilliseconds
  effects : List.Forall₂ (CompletionEffect.Reorders V) w.effects w'.effects
  protection : Option.Rel CompletionProtection.Reorders w.protection w'.protection
  replay : w.replay = w'.replay
  reconciliation : w.reconciliation = w'.reconciliation
  command : Option.Rel (CompletionCommand.Means V) w.command w'.command

end V1

end

/-! ## Domains and progress -/

theorem decodeOrdering_restores : Restores decodeOrdering encodeOrdering where
  of_ok {w o} h := by
    unfold decodeOrdering at h
    split at h <;> cases h <;> rename_i ho <;> exact V1.CompletionOrdering.tryFrom_eq_some.mp ho

theorem Domain.tryFrom_ok {w : V1.CompletionDomain} {d : Domain} (h : Domain.tryFrom w = .ok d) :
    w.ordering = encodeOrdering d.ordering ∧ w.identity = some d.identity.into ∧ w.unit = d.unit.value ∧
      w.revision = d.revision ∧ w.closed = d.closed ∧
      ∃ units, w.units = units.map Identity.into ∧ d.units = d.ordering.arrange units := by
  simp only [tryFrom, bind_ok, required_ok, fromModel_ok, Name.new_ok] at h
  obtain ⟨o, ho, _, _, wi, hwi, i, hi, unit, hunit, units, hunits, hnew⟩ := h
  obtain ⟨_, _, _, rfl, hr, rfl, rfl, hs, hc⟩ := Domain.new_ok.mp hnew
  refine ⟨(decodeOrdering_restores.of_ok ho).symm, ?_, hunit.symm, hr.symm, hc.symm, units, ?_, hs⟩
  · rw [hwi, Identity.tryFrom_restores.of_ok hi]
  · exact ((restores_list Identity.tryFrom_restores).of_ok hunits).symm

theorem Domain.tryFrom_determines : Determines Domain.tryFrom V1.CompletionDomain.Reorders where
  rel {w w' d} h h' := by
    obtain ⟨ho, hi, hu, hr, hc, units, hw, hs⟩ := tryFrom_ok h
    obtain ⟨ho', hi', hu', hr', hc', units', hw', hs'⟩ := tryFrom_ok h'
    have he : w' = { w with units := w'.units } := by
      cases w
      cases w'
      simp_all
    have harrange := Ordering.arrange_eq_iff.mp (hs.symm.trans hs')
    by_cases hunordered : d.ordering = .unordered
    · rw [if_pos hunordered] at harrange
      rw [he]
      refine .units ?_ ?_
      · rw [ho, hunordered]
        rfl
      · rw [hw, hw']
        exact harrange.map _
    · rw [if_neg hunordered] at harrange
      have hunits : w'.units = w.units := by rw [hw, hw', harrange]
      rw [he, hunits]
      exact .same

theorem itemsTryFrom_respects : Respects itemsTryFrom V1.CompletionItems.Reorders where
  ok hr hd := decodeSet_respects.ok hr hd

theorem itemsTryFrom_determines : Determines itemsTryFrom V1.CompletionItems.Reorders where
  rel h h' := (decodeSet_determines Identity.tryFrom_restores).rel h h'

theorem Progress.tryFrom_reorders : Respects Progress.tryFrom V1.CompletionProgress.Reorders where
  ok hr hd := Progress.tryFrom_respects hr hd

theorem Progress.tryFrom_determines : Determines Progress.tryFrom V1.CompletionProgress.Reorders where
  rel {w w' p} h h' := by
    simp only [tryFrom, bind_ok, required_ok] at h h'
    obtain ⟨value, hv, h⟩ := h
    obtain ⟨value', hv', h'⟩ := h'
    rw [V1.CompletionProgress.Reorders, hv, hv']
    refine .some ?_
    cases value <;> cases value' <;> simp only [bind_ok, pure_ok] at h h'
    · obtain ⟨completed, hc, rfl⟩ := h
      obtain ⟨_, hc', he⟩ := h'
      cases he
      exact .items (itemsTryFrom_determines.rel hc hc')
    all_goals grind [V1.CompletionProgressValue.Reorders]

/-! ## Intentions -/

theorem Intention.tryFrom_ok {w : V1.CompletionIntention} {i : Intention} : Intention.tryFrom w = .ok i ↔
    (∃ scope, w.scope = some scope ∧ EffectScope.tryFrom scope = .ok i.scope) ∧
      (∃ domain, w.domain = some domain ∧ Domain.tryFrom domain = .ok i.domain) ∧
      (∃ baseline, w.baseline = some baseline ∧ Progress.tryFrom baseline = .ok i.baseline) ∧
      (∃ desired, w.desired = some desired ∧ Progress.tryFrom desired = .ok i.desired) ∧ i.Valid := by
  simp only [tryFrom, bind_ok, required_ok, fromOperation_ok, validate_ok, exists_const, pure_ok]
  refine ⟨fun h => ?_, fun h => ?_⟩
  · obtain ⟨ws, hws, s, hs, wd, hwd, d, hd, wb, hwb, b, hb, wg, hwg, g, hg, hv, rfl⟩ := h
    exact ⟨⟨ws, hws, hs⟩, ⟨wd, hwd, hd⟩, ⟨wb, hwb, hb⟩, ⟨wg, hwg, hg⟩, hv⟩
  · obtain ⟨⟨ws, hws, hs⟩, ⟨wd, hwd, hd⟩, ⟨wb, hwb, hb⟩, ⟨wg, hwg, hg⟩, hv⟩ := h
    exact ⟨ws, hws, _, hs, wd, hwd, _, hd, wb, hwb, _, hb, wg, hwg, _, hg, hv, rfl⟩

theorem Intention.tryFrom_respects : Respects Intention.tryFrom V1.CompletionIntention.Reorders where
  ok {w w' i} h hd := by
    rw [tryFrom_ok] at hd ⊢
    obtain ⟨hs, hdomain, hb, hg, hv⟩ := hd
    exact ⟨h.scope ▸ hs, Domain.tryFrom_respects.part h.domain hdomain, Progress.tryFrom_reorders.part h.baseline hb,
      Progress.tryFrom_reorders.part h.desired hg, hv⟩

theorem Intention.tryFrom_determines : Determines Intention.tryFrom V1.CompletionIntention.Reorders where
  rel {w w' i} h h' := by
    rw [tryFrom_ok] at h h'
    obtain ⟨hs, hd, hb, hg, _⟩ := h
    obtain ⟨hs', hd', hb', hg', _⟩ := h'
    exact ⟨EffectScope.tryFrom_restores.part hs hs', Domain.tryFrom_determines.part hd hd',
      Progress.tryFrom_determines.part hb hb', Progress.tryFrom_determines.part hg hg'⟩

/-! ## Effects -/

variable {V : Type} [SerdeJson V]

theorem decodeJson_respects : Respects (decodeJson (V := V)) (SameJson V) where
  ok h hd := by
    rw [decodeJson_ok] at hd ⊢
    exact ⟨h.short, h.reads.trans hd.2⟩

theorem decodeJson_determines : Determines (decodeJson (V := V)) (SameJson V) where
  rel h h' := by
    rw [decodeJson_ok] at h h'
    exact ⟨h'.1, h'.2.trans h.2.symm⟩

theorem decodeBefore_respects : Respects (decodeBefore (V := V)) (V1.CompletionBeforeValue.Means V) where
  ok {w w' b} h hd := by
    simp only [decodeBefore, bind_ok, required_ok] at hd ⊢
    obtain ⟨value, hv, hd⟩ := hd
    obtain ⟨value', hv', hr⟩ := rel_some h hv
    refine ⟨value', hv', ?_⟩
    cases hr with
    | same => exact hd
    | knownJson hj =>
      simp only [bind_ok] at hd ⊢
      obtain ⟨v, hread, hd⟩ := hd
      exact ⟨v, decodeJson_respects.ok hj hread, hd⟩

theorem decodeBefore_determines : Determines (decodeBefore (V := V)) (V1.CompletionBeforeValue.Means V) where
  rel {w w' b} h h' := by
    simp only [decodeBefore, bind_ok, required_ok] at h h'
    obtain ⟨value, hv, h⟩ := h
    obtain ⟨value', hv', h'⟩ := h'
    rw [V1.CompletionBeforeValue.Means, hv, hv']
    refine .some ?_
    cases value <;> cases value' <;> simp only [bind_ok, pure_ok] at h h'
    · obtain ⟨v, hread, rfl⟩ := h
      obtain ⟨_, hread', he⟩ := h'
      cases he
      exact .knownJson (decodeJson_determines.rel hread hread')
    all_goals grind [V1.CompletionBeforeValueKind.Means]

theorem decodeChange_setCompletion {w : V1.CompletionSetter} {c : Change V} :
    decodeChange (.setCompletion w) = .ok c ↔ ∃ d b a, (∃ domain, w.domain = some domain ∧ Domain.tryFrom domain = .ok d) ∧
      (∃ before, w.before = some before ∧ Progress.tryFrom before = .ok b) ∧
      (∃ after, w.after = some after ∧ Progress.tryFrom after = .ok a) ∧ .setCompletion d b a = c := by
  simp only [decodeChange, bind_ok, required_ok, pure_ok]
  grind

theorem decodeChange_mergeItems {w : V1.CompletionMerge} {c : Change V} :
    decodeChange (.mergeItems w) = .ok c ↔ ∃ d b a, (∃ domain, w.domain = some domain ∧ Domain.tryFrom domain = .ok d) ∧
      (∃ before, w.before = some before ∧ itemsTryFrom before = .ok b) ∧
      (∃ additions, w.additions = some additions ∧ itemsTryFrom additions = .ok a) ∧ .mergeItems d b a = c := by
  simp only [decodeChange, bind_ok, required_ok, pure_ok]
  grind

theorem decodeChange_setValue {w : V1.CompletionValueSetter} {c : Change V} :
    decodeChange (.setValue w) = .ok c ↔ ∃ b a, (∃ before, w.before = some before ∧ decodeBefore before = .ok b) ∧
      decodeJson w.afterJson = .ok a ∧ .setValue b a = c := by
  simp only [decodeChange, bind_ok, required_ok, pure_ok]
  grind

theorem decodeChange_appendJson {bytes : List UInt8} {c : Change V} :
    decodeChange (.appendJson bytes) = .ok c ↔ ∃ v, decodeJson bytes = .ok v ∧ .append v = c := by
  simp only [decodeChange, bind_ok, pure_ok]

theorem decodeChange_respects : Respects (decodeChange (V := V)) (V1.CompletionChange.Reorders V) where
  ok {w w' c} h hd := by
    cases h with
    | setCompletion hdomain hb ha =>
      rw [decodeChange_setCompletion] at hd ⊢
      obtain ⟨d, b, a, h₁, h₂, h₃, rfl⟩ := hd
      exact ⟨d, b, a, Domain.tryFrom_respects.part hdomain h₁, Progress.tryFrom_reorders.part hb h₂,
        Progress.tryFrom_reorders.part ha h₃, rfl⟩
    | mergeItems hdomain hb ha =>
      rw [decodeChange_mergeItems] at hd ⊢
      obtain ⟨d, b, a, h₁, h₂, h₃, rfl⟩ := hd
      exact ⟨d, b, a, Domain.tryFrom_respects.part hdomain h₁, itemsTryFrom_respects.part hb h₂,
        itemsTryFrom_respects.part ha h₃, rfl⟩
    | setValue hb ha =>
      rw [decodeChange_setValue] at hd ⊢
      obtain ⟨b, a, h₁, h₂, rfl⟩ := hd
      exact ⟨b, a, decodeBefore_respects.part hb h₁, decodeJson_respects.ok ha h₂, rfl⟩
    | appendJson hj =>
      rw [decodeChange_appendJson] at hd ⊢
      obtain ⟨v, hv, rfl⟩ := hd
      exact ⟨v, decodeJson_respects.ok hj hv, rfl⟩

theorem decodeChange_determines : Determines (decodeChange (V := V)) (V1.CompletionChange.Reorders V) where
  rel {w w' c} h h' := by
    cases w <;> cases w' <;>
      simp only [decodeChange_setCompletion, decodeChange_mergeItems, decodeChange_setValue,
        decodeChange_appendJson] at h h'
    case setCompletion.setCompletion =>
      obtain ⟨d, b, a, h₁, h₂, h₃, rfl⟩ := h
      obtain ⟨_, _, _, h₁', h₂', h₃', he⟩ := h'
      cases he
      exact .setCompletion (Domain.tryFrom_determines.part h₁ h₁') (Progress.tryFrom_determines.part h₂ h₂')
        (Progress.tryFrom_determines.part h₃ h₃')
    case mergeItems.mergeItems =>
      obtain ⟨d, b, a, h₁, h₂, h₃, rfl⟩ := h
      obtain ⟨_, _, _, h₁', h₂', h₃', he⟩ := h'
      cases he
      exact .mergeItems (Domain.tryFrom_determines.part h₁ h₁') (itemsTryFrom_determines.part h₂ h₂')
        (itemsTryFrom_determines.part h₃ h₃')
    case setValue.setValue =>
      obtain ⟨b, a, h₁, h₂, rfl⟩ := h
      obtain ⟨_, _, h₁', h₂', he⟩ := h'
      cases he
      exact .setValue (decodeBefore_determines.part h₁ h₁') (decodeJson_determines.rel h₂ h₂')
    case appendJson.appendJson =>
      obtain ⟨v, hv, rfl⟩ := h
      obtain ⟨_, hv', he⟩ := h'
      cases he
      exact .appendJson (decodeJson_determines.rel hv hv')
    -- changes of two kinds are not one change
    all_goals grind

theorem decodeEffect_ok {w : V1.CompletionEffect} {e : Effect V} : decodeEffect w = .ok e ↔
    (∃ scope, w.scope = some scope ∧ EffectScope.tryFrom scope = .ok e.scope) ∧ e.group.value = w.group ∧
      ∃ change, w.change = some change ∧ decodeChange change = .ok e.change := by
  simp only [decodeEffect, bind_ok, required_ok, fromModel_ok, Name.new_ok, pure_ok]
  refine ⟨fun h => ?_, fun h => ?_⟩
  · obtain ⟨ws, hws, s, hs, g, hg, wc, hwc, c, hc, rfl⟩ := h
    exact ⟨⟨ws, hws, hs⟩, hg, wc, hwc, hc⟩
  · obtain ⟨⟨ws, hws, hs⟩, hg, wc, hwc, hc⟩ := h
    exact ⟨ws, hws, _, hs, _, hg, wc, hwc, _, hc, rfl⟩

theorem decodeEffect_respects : Respects (decodeEffect (V := V)) (V1.CompletionEffect.Reorders V) where
  ok {w w' e} h hd := by
    rw [decodeEffect_ok] at hd ⊢
    obtain ⟨hs, hg, hc⟩ := hd
    exact ⟨h.scope ▸ hs, hg.trans h.group, decodeChange_respects.part h.change hc⟩

theorem decodeEffect_determines : Determines (decodeEffect (V := V)) (V1.CompletionEffect.Reorders V) where
  rel {w w' e} h h' := by
    rw [decodeEffect_ok] at h h'
    obtain ⟨hs, hg, hc⟩ := h
    obtain ⟨hs', hg', hc'⟩ := h'
    exact ⟨EffectScope.tryFrom_restores.part hs hs', hg.symm.trans hg', decodeChange_determines.part hc hc'⟩

/-! ## Protection and replay -/

theorem EffectGroup.tryFrom_restores : Restores EffectGroup.tryFrom EffectGroup.into where
  of_ok {w g} h := by
    simp only [tryFrom, bind_ok, required_ok, fromModel_ok, Name.new_ok, pure_ok] at h
    obtain ⟨a, ha, account, haccount, b, hb, subject, hsubject, group, hgroup, rfl⟩ := h
    rw [into, Identity.tryFrom_restores.of_ok haccount, Identity.tryFrom_restores.of_ok hsubject, hgroup, ← ha, ← hb]

theorem decodeProtection_respects : Respects decodeProtection V1.CompletionProtection.Reorders where
  ok {w w' p} h hd := by
    simp only [decodeProtection, bind_ok, required_ok] at hd ⊢
    obtain ⟨value, hv, hd⟩ := hd
    obtain ⟨value', hv', hr⟩ := rel_some h hv
    refine ⟨value', hv', ?_⟩
    cases hr with
    | same => exact hd
    | conditional hp =>
      simp only [bind_ok] at hd ⊢
      obtain ⟨groups, hg, hd⟩ := hd
      exact ⟨groups, decodeSet_respects.ok hp hg, hd⟩

theorem decodeProtection_determines : Determines decodeProtection V1.CompletionProtection.Reorders where
  rel {w w' p} h h' := by
    simp only [decodeProtection, bind_ok, required_ok] at h h'
    obtain ⟨value, hv, h⟩ := h
    obtain ⟨value', hv', h'⟩ := h'
    rw [V1.CompletionProtection.Reorders, hv, hv']
    refine .some ?_
    cases value <;> cases value' <;> simp only [bind_ok, pure_ok] at h h'
    case conditional.conditional value value' =>
      obtain ⟨groups, hg, rfl⟩ := h
      obtain ⟨_, hg', he⟩ := h'
      obtain ⟨htoken, rfl⟩ := Protection.conditional.inj he
      have hp := (decodeSet_determines EffectGroup.tryFrom_restores).rel hg hg'
      cases value
      cases value'
      cases htoken
      exact .conditional hp
    all_goals grind [V1.CompletionProtectionValue.Reorders]

theorem decodeReplay_restores : Restores decodeReplay Replay.into where
  of_ok {w r} h := by
    obtain ⟨value⟩ := w
    simp only [decodeReplay, bind_ok, required_ok] at h
    obtain ⟨value, rfl, h⟩ := h
    cases value with
    | unsupported =>
      cases h
      rfl
    | deduplicated value =>
      simp only [bind_ok, required_ok, pure_ok] at h
      obtain ⟨wk, hwk, key, hk, ws, hws, scope, hs, rfl⟩ := h
      rw [Replay.into, Identity.tryFrom_restores.of_ok hk, Identity.tryFrom_restores.of_ok hs, ← hwk, ← hws]

/-! ## Operations -/

/-- What an operation was sent as. -/
structure PreparedOperation.SentAs (w : V1.PreparedCompletionOperation) (op : PreparedOperation V) : Prop where
  identity : ∃ identity, w.identity = some identity ∧ Identity.tryFrom identity = .ok op.identity
  operationClass : op.operationClass.value = w.operationClass
  behaviorRevision : op.behaviorRevision = w.behaviorRevision
  prepared : op.preparedAtMilliseconds = w.preparedAtMilliseconds
  expires : op.expiresAtMilliseconds = w.expiresAtMilliseconds
  effects : w.effects.mapM decodeEffect = .ok op.effects
  protection : ∃ protection, w.protection = some protection ∧ decodeProtection protection = .ok op.protection
  replay : ∃ replay, w.replay = some replay ∧ decodeReplay replay = .ok op.replay
  reconciliation : w.reconciliation.mapM Name.new = .ok op.reconciliation
  command : ∃ command, w.command = some command ∧ op.command.method.value = command.method ∧
    decodeJson command.parametersJson = .ok op.command.parameters

theorem decodePrepared_ok {behavior : Behavior} {w : V1.PreparedCompletionOperation} {op : PreparedOperation V} :
    decodePrepared behavior w = .ok op ↔ op.SentAs w ∧ op.Valid behavior := by
  simp only [decodePrepared, bind_ok, reject_ok, gt_iff_lt, Nat.not_lt, exists_const, required_ok, fromModel_ok,
    Name.new_ok, fromOperation_ok, PreparedOperation.validate_ok, pure_ok]
  refine ⟨fun h => ?_, fun h => ?_⟩
  · obtain ⟨_, wc, hwc, wi, hwi, i, hi, c, hc, effects, he, wp, hwp, p, hp, wr, hwr, r, hr, method, hm, name, hn, v, hv,
      hvalid, rfl⟩ := h
    exact ⟨⟨⟨wi, hwi, hi⟩, hc, rfl, rfl, rfl, he, ⟨wp, hwp, hp⟩, ⟨wr, hwr, hr⟩, hm, wc, hwc, hn, hv⟩, hvalid⟩
  · obtain ⟨⟨⟨wi, hwi, hi⟩, hc, hrev, hprep, hexp, he, ⟨wp, hwp, hp⟩, ⟨wr, hwr, hr⟩, hm, wc, hwc, hn, hv⟩, hvalid⟩ := h
    have hbound : w.effects.length ≤ maximumEffects := by
      rw [(mapM_ok.mp he).length_eq]
      exact hvalid.effects.2
    refine ⟨hbound, wc, hwc, wi, hwi, _, hi, _, hc, _, he, wp, hwp, _, hp, wr, hwr, _, hr, _, hm, _, hn, _, hv, ?_⟩
    rw [← hrev, ← hprep, ← hexp]
    exact ⟨hvalid, rfl⟩

theorem optionMapM_new_restores {name name' : Option String} {n : Option Name} (h : name.mapM Name.new = .ok n)
    (h' : name'.mapM Name.new = .ok n) : name = name' := by
  have hval : ∀ {o : Option String}, o.mapM Name.new = .ok n → n.map (·.value) = o := by
    intro o ho
    cases o with
    | none =>
      cases ho
      rfl
    | some value =>
      obtain ⟨m, hm, rfl⟩ := map_ok.mp ho
      rw [Option.map_some, Name.new_ok.mp hm]
  exact (hval h).symm.trans (hval h')

theorem decodePrepared_respects {behavior : Behavior} :
    Respects (decodePrepared (V := V) behavior) (V1.PreparedCompletionOperation.Reorders V) where
  ok {w w' op} h hd := by
    rw [decodePrepared_ok] at hd ⊢
    obtain ⟨hs, hv⟩ := hd
    obtain ⟨wc, hwc, hn, hj⟩ := hs.command
    obtain ⟨wc', hwc', hr⟩ := rel_some h.command hwc
    refine ⟨⟨h.identity ▸ hs.identity, hs.operationClass.trans h.operationClass,
      hs.behaviorRevision.trans h.behaviorRevision, hs.prepared.trans h.prepared, hs.expires.trans h.expires,
      (respects_list decodeEffect_respects).ok h.effects hs.effects,
      decodeProtection_respects.part h.protection hs.protection, h.replay ▸ hs.replay,
      h.reconciliation ▸ hs.reconciliation, ?_⟩, hv⟩
    exact ⟨wc', hwc', hn.trans hr.method, decodeJson_respects.ok hr.parameters hj⟩

theorem decodePrepared_determines {behavior : Behavior} :
    Determines (decodePrepared (V := V) behavior) (V1.PreparedCompletionOperation.Reorders V) where
  rel {w w' op} h h' := by
    have hs := (decodePrepared_ok.mp h).1
    have hs' := (decodePrepared_ok.mp h').1
    obtain ⟨wc, hwc, hn, hj⟩ := hs.command
    obtain ⟨wc', hwc', hn', hj'⟩ := hs'.command
    refine ⟨Identity.tryFrom_restores.part hs.identity hs'.identity, hs.operationClass.symm.trans hs'.operationClass,
      hs.behaviorRevision.symm.trans hs'.behaviorRevision, hs.prepared.symm.trans hs'.prepared,
      hs.expires.symm.trans hs'.expires, (determines_list decodeEffect_determines).rel hs.effects hs'.effects,
      decodeProtection_determines.part hs.protection hs'.protection,
      decodeReplay_restores.part hs.replay hs'.replay,
      optionMapM_new_restores hs.reconciliation hs'.reconciliation, ?_⟩
    rw [hwc, hwc']
    exact .some ⟨hn.symm.trans hn', decodeJson_determines.rel hj hj'⟩

/-! ## What is remembered -/

/-- **What a decoded intention remembers.** It is decoded again from what it
is encoded to, and from exactly the messages that differ from its own in the
order of an unordered domain's units and of the items of its progress. -/
theorem Intention.decoded_iff {w : V1.CompletionIntention} {i : Intention} (h : Intention.tryFrom w = .ok i) :
    Intention.tryFrom i.into = .ok i ∧ ∀ w', Intention.tryFrom w' = .ok i ↔ w.Reorders w' :=
  ⟨i.tryFrom_returns.ok (tryFrom_ok.mp h).2.2.2.2,
    fun _ => ⟨tryFrom_determines.rel h, fun hr => tryFrom_respects.ok hr h⟩⟩

/-- **What a decoded operation remembers.** The messages decoded as one
operation are those that differ in the order of the units of unordered
domains, of items and of protected groups, and in the spelling of JSON
values. So no two that ask for anything else are taken for one. -/
theorem decodePrepared_iff {behavior : Behavior} {w : V1.PreparedCompletionOperation} {op : PreparedOperation V}
    (h : decodePrepared behavior w = .ok op) (w' : V1.PreparedCompletionOperation) :
    decodePrepared behavior w' = .ok op ↔ w.Reorders V w' :=
  ⟨decodePrepared_determines.rel h, fun hr => decodePrepared_respects.ok hr h⟩

/-- An unordered domain of the units given. -/
def unorderedDomain (units : List V1.CompletionIdentity) : V1.CompletionDomain :=
  ⟨some Identity.sample.into, "r1", "sample:name", 2, units, false⟩

def itemsScope : EffectScope := ⟨.sample, .sample, .sample⟩

/-- From nothing to the items given, of a domain of the units given. -/
def itemsIntention (units items : List V1.CompletionIdentity) : V1.CompletionIntention where
  scope := some itemsScope.into
  domain := some (unorderedDomain units)
  baseline := some ⟨some (.items ⟨[]⟩)⟩
  desired := some ⟨some (.items ⟨items⟩)⟩

theorem itemsIntention_decoded :
    let a := Identity.sample.into
    let b := otherIdentity.into
    ∃ i, Intention.tryFrom (itemsIntention [a, b] [b, a]) = .ok i ∧
      Intention.tryFrom (itemsIntention [b, a] [a, b]) = .ok i := by
  intro a b
  obtain ⟨i, hi⟩ : ∃ i, Intention.tryFrom (itemsIntention [a, b] [b, a]) = .ok i := isOk_iff.mp (by decide +kernel)
  refine ⟨i, hi, ((Intention.decoded_iff hi).2 _).mpr ⟨rfl, .some (.units rfl (.swap _ _ _)), .some ?_, .some ?_⟩⟩
  · exact .some (.same _)
  · exact .some (.items (.swap _ _ _))

def itemsBehavior : Behavior where
  revision := "r1"
  subjectRoles := .new
  units := .collect [.sample]
  operations := [⟨.sample, .collect [.sample], .collect [.monotoneMerge], false, .new⟩]

/-- An operation that adds the items given, of a domain of the units given. -/
def itemsOperation (units items : List V1.CompletionIdentity) : V1.PreparedCompletionOperation where
  identity := some Identity.sample.into
  operationClass := "sample:name"
  behaviorRevision := "r1"
  preparedAtMilliseconds := 0
  expiresAtMilliseconds := 1
  effects := [⟨some itemsScope.into, "sample:name",
    some (.mergeItems ⟨some (unorderedDomain units), some ⟨[]⟩, some ⟨items⟩⟩)⟩]
  protection := some ⟨some .monotoneMerge⟩
  replay := some ⟨some .unsupported⟩
  reconciliation := none
  command := some ⟨"sample:name", SampleJson.print (.text 0)⟩

theorem itemsOperation_decoded :
    let a := Identity.sample.into
    let b := otherIdentity.into
    ∃ op : PreparedOperation SampleJson, decodePrepared itemsBehavior (itemsOperation [a, b] [b, a]) = .ok op ∧
      decodePrepared itemsBehavior (itemsOperation [b, a] [a, b]) = .ok op := by
  intro a b
  obtain ⟨op, hop⟩ : ∃ op : PreparedOperation SampleJson,
      decodePrepared itemsBehavior (itemsOperation [a, b] [b, a]) = .ok op := isOk_iff.mp (by decide +kernel)
  have hchange : V1.CompletionChange.Reorders SampleJson
      (.mergeItems ⟨some (unorderedDomain [a, b]), some ⟨[]⟩, some ⟨[b, a]⟩⟩)
      (.mergeItems ⟨some (unorderedDomain [b, a]), some ⟨[]⟩, some ⟨[a, b]⟩⟩) :=
    .mergeItems (.some (.units rfl (.swap _ _ _))) (.some (.refl _)) (.some (.swap _ _ _))
  refine ⟨op, hop, (decodePrepared_iff hop _).mpr
    ⟨rfl, rfl, rfl, rfl, rfl, .cons ⟨rfl, rfl, .some hchange⟩ .nil, .some (.some (.same _)), rfl, rfl, .some ⟨rfl, ?_⟩⟩⟩
  exact ⟨by decide, rfl⟩

end ProviderSdk
