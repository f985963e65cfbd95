/-
Outcomes reported for an attempt (`completion_operation.rs`).

What a report establishes is `Evidence`: whether the request is over, and
what is known of each effect. Evidence is preordered by what it may turn
into, and the transition check compares two reports in that order
(`validateAttemptOutcome_some`); what holds along a run of reports follows
from the order alone.
-/
import ProviderSdk.PreparedOperation
import ProviderSdk.SampleJson

namespace ProviderSdk

open Checks

inductive RequestLifecycle where
  | notDispatched
  | mayStillExecute
  | terminal (evidenceKind : Name) (evidence : Identity)
  deriving DecidableEq

inductive LifecycleKind where
  | notDispatched
  | mayStillExecute
  | terminal
  deriving DecidableEq

/-- The variant of a lifecycle, which is all `matches!` looks at. -/
def RequestLifecycle.kind : RequestLifecycle → LifecycleKind
  | .notDispatched => .notDispatched
  | .mayStillExecute => .mayStillExecute
  | .terminal _ _ => .terminal

inductive EffectKnowledge where
  | unknown
  | notApplied
  | applied
  | partiallyApplied
  deriving DecidableEq

inductive Satisfaction where
  | unknown
  | satisfied
  | unsatisfied
  deriving DecidableEq

structure EffectOutcome where
  scope : EffectScope
  knowledge : EffectKnowledge
  deriving DecidableEq

structure AttemptOutcome where
  operation : Identity
  attempt : Identity
  lifecycle : RequestLifecycle
  effects : List EffectOutcome
  satisfaction : Satisfaction
  deriving DecidableEq

variable {V : Type}

def AttemptOutcome.validateFor (self : AttemptOutcome) (operation : PreparedOperation V) (attempt : Identity) :
    Except OperationError Unit :=
  let scopes := BTreeSet.collect (operation.effects.map (·.scope))
  reject (self.operation ≠ operation.identity ∨ self.attempt ≠ attempt ∨ self.effects.length ≠ scopes.len ∨
    BTreeSet.collect (self.effects.map (·.scope)) ≠ scopes ∨
    self.lifecycle = .notDispatched ∧ ∃ effect ∈ self.effects, effect.knowledge ≠ .notApplied) .invalidOutcome

def AttemptOutcome.requiresBarrier (self : AttemptOutcome) : Bool := self.lifecycle = .mayStillExecute

/-- `current_effects`: what an outcome knows of each scope. -/
def AttemptOutcome.effectKnowledge (self : AttemptOutcome) : BTreeMap EffectScope EffectKnowledge :=
  .collect (self.effects.map fun effect => (effect.scope, effect.knowledge))

/-- The body of the loop over the previous effects in
`validate_attempt_outcome`. Indexing a map panics where it has no entry. -/
def checkEffect (previous : RequestLifecycle) (currentEffects : BTreeMap EffectScope EffectKnowledge)
    (effect : EffectOutcome) : Except (Fault OperationError) Unit := do
  let knowledge ← okOr (currentEffects.get effect.scope) .panic
  reject (effect.knowledge = .applied ∧ knowledge ≠ .applied ∨
    effect.knowledge = .partiallyApplied ∧ (knowledge = .unknown ∨ knowledge = .notApplied) ∨
    effect.knowledge = .notApplied ∧ previous.kind = .terminal ∧ knowledge ≠ .notApplied)
    (.error .invalidOutcome)

def validateAttemptOutcome (operation : PreparedOperation V) (attempt : Identity)
    (previous : Option AttemptOutcome) (current : AttemptOutcome) : Except (Fault OperationError) Unit := do
  fallible (current.validateFor operation attempt)
  reject (current.lifecycle = .notDispatched) (.error .invalidOutcome)
  (match previous with
    | none => pure ()
    | some previous => do
      fallible (previous.validateFor operation attempt)
      reject (previous.lifecycle = .notDispatched ∨
        previous.lifecycle.kind = .terminal ∧ current.lifecycle.kind ≠ .terminal) (.error .invalidOutcome)
      previous.effects.forM (checkEffect previous.lifecycle current.effectKnowledge))

/-! ## Evidence -/

/-- What is known of an attempt on the effects `σ`: whether its request is
over, and what became of each effect. -/
structure Evidence (σ : Type) where
  terminal : Bool
  knowledge : σ → EffectKnowledge

/-- What may be known of an effect later. That it was not applied is only
final once the request is over. -/
def EffectKnowledge.Allows (terminal : Bool) : EffectKnowledge → EffectKnowledge → Prop
  | .unknown, _ => True
  | .notApplied, k => terminal = true → k = .notApplied
  | .partiallyApplied, k => k = .partiallyApplied ∨ k = .applied
  | .applied, k => k = .applied

theorem EffectKnowledge.Allows.refl {t : Bool} : ∀ k : EffectKnowledge, k.Allows t k
  | .unknown => trivial
  | .notApplied => fun _ => rfl
  | .partiallyApplied => .inl rfl
  | .applied => rfl

theorem EffectKnowledge.Allows.trans {t t' : Bool} {k k' k'' : EffectKnowledge} (ht : t = true → t' = true)
    (h : k.Allows t k') (h' : k'.Allows t' k'') : k.Allows t k'' := by
  cases k with
  | unknown => trivial
  | notApplied =>
    intro htrue
    have hk : k' = .notApplied := h htrue
    subst hk
    exact h' (ht htrue)
  | partiallyApplied =>
    rcases h with rfl | rfl
    · exact h'
    · exact .inr h'
  | applied =>
    have hk : k' = .applied := h
    subst hk
    exact h'

/-- Evidence may grow, and a request may end. -/
instance {σ : Type} : Preorder (Evidence σ) where
  le a b := (a.terminal = true → b.terminal = true) ∧ ∀ s, (a.knowledge s).Allows a.terminal (b.knowledge s)
  le_refl a := ⟨id, fun s => .refl _⟩
  le_trans _ _ _ hab hbc := ⟨hbc.1 ∘ hab.1, fun s => (hab.2 s).trans hab.1 (hbc.2 s)⟩

theorem Evidence.le_iff {σ : Type} {a b : Evidence σ} : a ≤ b ↔
    (a.terminal = true → b.terminal = true) ∧ ∀ s, (a.knowledge s).Allows a.terminal (b.knowledge s) := .rfl

/-- Evidence that may turn into each other differs only in what is open
while the request may still execute. -/
theorem Evidence.antisymm {σ : Type} {a b : Evidence σ} (hab : a ≤ b) (hba : b ≤ a) :
    a.terminal = b.terminal ∧ ∀ s, a.knowledge s = b.knowledge s ∨
      a.terminal = false ∧ (a.knowledge s = .unknown ∨ a.knowledge s = .notApplied) ∧
        (b.knowledge s = .unknown ∨ b.knowledge s = .notApplied) := by
  have ht : a.terminal = b.terminal := Bool.eq_iff_iff.mpr ⟨hab.1, hba.1⟩
  refine ⟨ht, fun s => ?_⟩
  have h := hab.2 s
  have h' := hba.2 s
  rw [← ht] at h'
  cases hk : a.knowledge s <;> cases hk' : b.knowledge s <;> rw [hk, hk'] at h h' <;>
    simp_all [EffectKnowledge.Allows]

/-! ## Reports as evidence -/

/-- A native report on an attempt: one `validate_for` accepts, of a request
that was dispatched. -/
structure Reported (operation : PreparedOperation V) (attempt : Identity) (o : AttemptOutcome) : Prop where
  valid : o.validateFor operation attempt = .ok ()
  dispatched : o.lifecycle ≠ .notDispatched

/-- What a report establishes; of a scope it does not name, nothing. -/
def AttemptOutcome.evidence (o : AttemptOutcome) : Evidence EffectScope where
  terminal := o.lifecycle.kind = .terminal
  knowledge scope := (o.effectKnowledge.get scope).getD .unknown

variable {operation : PreparedOperation V} {attempt : Identity} {o a b : AttemptOutcome}

theorem AttemptOutcome.validateFor_ok {u : Unit} : o.validateFor operation attempt = .ok u ↔
    o.operation = operation.identity ∧ o.attempt = attempt ∧ (o.effects.map (·.scope)).Nodup ∧
    (∀ s, s ∈ o.effects.map (·.scope) ↔ s ∈ operation.effects.map (·.scope)) ∧
    (o.lifecycle = .notDispatched → ∀ e ∈ o.effects, e.knowledge = .notApplied) := by
  have hs : BTreeSet.collect (o.effects.map (·.scope)) = .collect (operation.effects.map (·.scope)) ↔
      ∀ s, s ∈ o.effects.map (·.scope) ↔ s ∈ operation.effects.map (·.scope) := by
    rw [BTreeSet.collect_eq_iff]
    exact forall_congr' fun s => by rw [BTreeSet.mem_collect]
  simp only [validateFor, reject_ok, not_or, not_not, ne_eq, not_and, not_exists]
  refine ⟨fun h => ?_, fun h => ?_⟩
  · obtain ⟨h₁, h₂, h₃, h₄, h₅⟩ := h
    refine ⟨h₁, h₂, ?_, hs.mp h₄, h₅⟩
    rw [← BTreeSet.len_collect, h₄, ← h₃, List.length_map]
  · obtain ⟨h₁, h₂, h₃, h₄, h₅⟩ := h
    refine ⟨h₁, h₂, ?_, hs.mpr h₄, h₅⟩
    rw [← hs.mpr h₄, BTreeSet.len_collect.mpr h₃, List.length_map]

theorem Reported.nodup (h : Reported operation attempt o) : (o.effects.map (·.scope)).Nodup :=
  (AttemptOutcome.validateFor_ok.mp h.valid).2.2.1

/-- A report knows exactly what its entries say. -/
theorem Reported.get_effectKnowledge (h : Reported operation attempt o) {s : EffectScope} {k : EffectKnowledge} :
    o.effectKnowledge.get s = some k ↔ ⟨s, k⟩ ∈ o.effects := by
  have hd : ((o.effects.map fun e => (e.scope, e.knowledge)).map (·.1)).Nodup := by
    rw [List.map_map]
    exact h.nodup
  rw [AttemptOutcome.effectKnowledge, BTreeMap.get_collect hd]
  simp only [List.mem_map, Prod.mk.injEq]
  refine ⟨fun h => ?_, fun he => ⟨_, he, rfl, rfl⟩⟩
  obtain ⟨e, he, hs, hk⟩ := h
  rw [← hs, ← hk]
  exact he

/-- Two reports on one attempt name the same scopes. -/
theorem Reported.scope_iff (ha : Reported operation attempt a) (hb : Reported operation attempt b)
    {s : EffectScope} : (∃ k, ⟨s, k⟩ ∈ a.effects) ↔ ∃ k, ⟨s, k⟩ ∈ b.effects := by
  have hmem : ∀ o : AttemptOutcome, (∃ k, ⟨s, k⟩ ∈ o.effects) ↔ s ∈ o.effects.map (·.scope) := fun o => by
    rw [List.mem_map]
    refine ⟨fun h => ?_, fun h => ?_⟩
    · obtain ⟨k, h⟩ := h
      exact ⟨_, h, rfl⟩
    · obtain ⟨e, h, hs⟩ := h
      exact ⟨e.knowledge, hs ▸ h⟩
  rw [hmem, hmem, (AttemptOutcome.validateFor_ok.mp ha.valid).2.2.2.1 s,
    (AttemptOutcome.validateFor_ok.mp hb.valid).2.2.2.1 s]

theorem checkEffect_ok {lifecycle : RequestLifecycle} {current : BTreeMap EffectScope EffectKnowledge}
    {e : EffectOutcome} {u : Unit} : checkEffect lifecycle current e = .ok u ↔
      ∃ k, current.get e.scope = some k ∧ e.knowledge.Allows (lifecycle.kind = .terminal) k := by
  simp only [checkEffect, bind_ok, okOr_ok, reject_ok]
  refine exists_congr fun k => and_congr_right fun _ => ?_
  cases e.knowledge <;> cases k <;> simp [EffectKnowledge.Allows]

/-- The loop over the previous effects compares evidence. -/
theorem checkEffects_ok (ha : Reported operation attempt a) (hb : Reported operation attempt b) {u : PUnit} :
    a.effects.forM (checkEffect a.lifecycle b.effectKnowledge) = .ok u ↔
      ∀ s, (a.evidence.knowledge s).Allows a.evidence.terminal (b.evidence.knowledge s) := by
  simp only [forM_ok, checkEffect_ok, AttemptOutcome.evidence]
  refine ⟨fun h s => ?_, fun h e he => ?_⟩
  · cases hk : a.effectKnowledge.get s with
    | none => trivial
    | some k =>
      obtain ⟨k', hk', hallows⟩ := h _ (ha.get_effectKnowledge.mp hk)
      have hget : b.effectKnowledge.get s = some k' := hk'
      rw [hget]
      exact hallows
  · obtain ⟨k', hk'⟩ := (ha.scope_iff hb).mp ⟨e.knowledge, he⟩
    have hget := hb.get_effectKnowledge.mpr hk'
    have hs := h e.scope
    rw [ha.get_effectKnowledge.mpr he, hget] at hs
    exact ⟨k', hget, hs⟩

theorem validateAttemptOutcome_none {u : Unit} :
    validateAttemptOutcome operation attempt none o = .ok u ↔ Reported operation attempt o := by
  simp only [validateAttemptOutcome, bind_ok, fallible_ok, exists_unit, reject_ok, pure_ok, and_true]
  refine ⟨fun h => ?_, fun h => ?_⟩
  · obtain ⟨h₁, h₂⟩ := h
    exact ⟨h₁, h₂⟩
  · exact ⟨h.1, h.2⟩

/-- A report is accepted after another exactly when both are reports on the
attempt and the evidence of the one may turn into that of the other. -/
theorem validateAttemptOutcome_some {u : Unit} :
    validateAttemptOutcome operation attempt (some a) b = .ok u ↔
      Reported operation attempt a ∧ Reported operation attempt b ∧ a.evidence ≤ b.evidence := by
  have ht : ¬ (a.lifecycle.kind = .terminal ∧ b.lifecycle.kind ≠ .terminal) ↔
      (a.evidence.terminal = true → b.evidence.terminal = true) := by
    simp [AttemptOutcome.evidence]
  simp only [validateAttemptOutcome, bind_ok, fallible_ok, exists_unit, reject_ok, not_or, ht, Evidence.le_iff]
  refine ⟨fun h => ?_, fun h => ?_⟩
  · obtain ⟨hb, hb', ha, ⟨ha', hle⟩, hk⟩ := h
    exact ⟨⟨ha, ha'⟩, ⟨hb, hb'⟩, hle, (checkEffects_ok ⟨ha, ha'⟩ ⟨hb, hb'⟩).mp hk⟩
  · obtain ⟨ha, hb, hle, hk⟩ := h
    exact ⟨hb.1, hb.2, ha.1, ⟨ha.2, hle⟩, (checkEffects_ok ha hb).mpr hk⟩

/-! ## Runs of reports -/

/-- Reports on an attempt in the order they arrive, each checked against the
one before it. -/
structure ReportRun (operation : PreparedOperation V) (attempt : Identity) (os : List AttemptOutcome) : Prop where
  first : ∀ o ∈ os.head?, validateAttemptOutcome operation attempt none o = .ok ()
  next : os.IsChain fun previous current =>
    validateAttemptOutcome operation attempt (some previous) current = .ok ()

/-- What a report leaves standing of an earlier one. -/
structure Keeps (earlier later : AttemptOutcome) : Prop where
  terminal : earlier.lifecycle.kind = .terminal → later.lifecycle.kind = .terminal
  barrier : earlier.requiresBarrier = false → later.requiresBarrier = false
  applied : ∀ s, earlier.effectKnowledge.get s = some .applied → later.effectKnowledge.get s = some .applied
  partiallyApplied : ∀ s, earlier.effectKnowledge.get s = some .partiallyApplied →
    later.effectKnowledge.get s = some .partiallyApplied ∨ later.effectKnowledge.get s = some .applied
  notApplied : earlier.lifecycle.kind = .terminal → ∀ s,
    earlier.effectKnowledge.get s = some .notApplied → later.effectKnowledge.get s = some .notApplied

/-- Two reports that say the same of the request and of every effect, up to
what is open while the request may still execute. -/
structure SameEvidence (a b : AttemptOutcome) : Prop where
  lifecycle : a.lifecycle.kind = b.lifecycle.kind
  knowledge : ∀ s, a.effectKnowledge.get s = b.effectKnowledge.get s ∨
    (a.lifecycle = .mayStillExecute ∧ b.lifecycle = .mayStillExecute ∧
      (a.effectKnowledge.get s = some .unknown ∨ a.effectKnowledge.get s = some .notApplied) ∧
      (b.effectKnowledge.get s = some .unknown ∨ b.effectKnowledge.get s = some .notApplied))

theorem validateAttemptOutcome_refl (h : Reported operation attempt o) :
    validateAttemptOutcome operation attempt (some o) o = .ok () :=
  validateAttemptOutcome_some.mpr ⟨h, h, le_refl _⟩

theorem validateAttemptOutcome_trans {c : AttemptOutcome}
    (hab : validateAttemptOutcome operation attempt (some a) b = .ok ())
    (hbc : validateAttemptOutcome operation attempt (some b) c = .ok ()) :
    validateAttemptOutcome operation attempt (some a) c = .ok () := by
  obtain ⟨ha, _, hle⟩ := validateAttemptOutcome_some.mp hab
  obtain ⟨_, hc, hle'⟩ := validateAttemptOutcome_some.mp hbc
  exact validateAttemptOutcome_some.mpr ⟨ha, hc, hle.trans hle'⟩

/-- Only a request that may still execute requires a barrier, once it was
dispatched. -/
theorem Reported.requiresBarrier_iff (h : Reported operation attempt o) :
    o.requiresBarrier = false ↔ o.lifecycle.kind = .terminal := by
  have hd := h.dispatched
  unfold AttemptOutcome.requiresBarrier
  cases hl : o.lifecycle <;> simp_all [RequestLifecycle.kind]

theorem Reported.lifecycle_cases (h : Reported operation attempt o) :
    o.lifecycle = .mayStillExecute ∨ o.lifecycle.kind = .terminal := by
  have hd := h.dispatched
  cases hl : o.lifecycle <;> simp_all [RequestLifecycle.kind]

/-- What is allowed of the evidence at a scope both reports name. -/
theorem Reported.allows (ha : Reported operation attempt a) (hb : Reported operation attempt b)
    (hle : a.evidence ≤ b.evidence) {s : EffectScope} {k : EffectKnowledge}
    (hk : a.effectKnowledge.get s = some k) :
    ∃ k', b.effectKnowledge.get s = some k' ∧ k.Allows (a.lifecycle.kind = .terminal) k' := by
  obtain ⟨k', hk'⟩ := (ha.scope_iff hb).mp ⟨k, ha.get_effectKnowledge.mp hk⟩
  have hget := hb.get_effectKnowledge.mpr hk'
  have hs := hle.2 s
  simp only [AttemptOutcome.evidence, hk, hget, Option.getD_some] at hs
  exact ⟨k', hget, hs⟩

theorem keeps_of_accepted (h : validateAttemptOutcome operation attempt (some a) b = .ok ()) : Keeps a b := by
  obtain ⟨ha, hb, hle⟩ := validateAttemptOutcome_some.mp h
  have ht : a.lifecycle.kind = .terminal → b.lifecycle.kind = .terminal := by
    simpa [AttemptOutcome.evidence] using hle.1
  refine ⟨ht, fun h => ?_, fun s hs => ?_, fun s hs => ?_, fun htrue s hs => ?_⟩
  · exact hb.requiresBarrier_iff.mpr (ht (ha.requiresBarrier_iff.mp h))
  · obtain ⟨k, hk, hallows⟩ := ha.allows hb hle hs
    have he : k = .applied := hallows
    rw [hk, he]
  · obtain ⟨k, hk, hallows⟩ := ha.allows hb hle hs
    rcases hallows with he | he
    · exact .inl (by rw [hk, he])
    · exact .inr (by rw [hk, he])
  · obtain ⟨k, hk, hallows⟩ := ha.allows hb hle hs
    have he : k = .notApplied := hallows (by simp [htrue])
    rw [hk, he]

theorem sameEvidence_of_accepted (hab : validateAttemptOutcome operation attempt (some a) b = .ok ())
    (hba : validateAttemptOutcome operation attempt (some b) a = .ok ()) : SameEvidence a b := by
  obtain ⟨ha, hb, hle⟩ := validateAttemptOutcome_some.mp hab
  obtain ⟨_, _, hle'⟩ := validateAttemptOutcome_some.mp hba
  obtain ⟨ht, hk⟩ := Evidence.antisymm hle hle'
  have hkind : a.lifecycle.kind = .terminal ↔ b.lifecycle.kind = .terminal := by
    simpa [AttemptOutcome.evidence] using ht
  have hexec : a.lifecycle.kind ≠ .terminal → a.lifecycle = .mayStillExecute ∧ b.lifecycle = .mayStillExecute :=
    fun hn => ⟨ha.lifecycle_cases.resolve_right hn, hb.lifecycle_cases.resolve_right (hkind.not.mp hn)⟩
  refine ⟨?_, fun s => ?_⟩
  · by_cases htrue : a.lifecycle.kind = .terminal
    · rw [htrue, hkind.mp htrue]
    · obtain ⟨h₁, h₂⟩ := hexec htrue
      rw [h₁, h₂]
  · cases hs : a.effectKnowledge.get s with
    | none =>
      cases hs' : b.effectKnowledge.get s with
      | none => exact .inl rfl
      | some k' =>
        obtain ⟨k, hk⟩ := (ha.scope_iff hb).mpr ⟨k', hb.get_effectKnowledge.mp hs'⟩
        rw [ha.get_effectKnowledge.mpr hk] at hs
        cases hs
    | some k =>
      obtain ⟨k', hk', _⟩ := ha.allows hb hle hs
      have h := hk s
      simp only [AttemptOutcome.evidence, hs, hk', Option.getD_some, decide_eq_false_iff_not] at h
      rw [hk']
      rcases h with rfl | ⟨hn, hk, hk'⟩
      · exact .inl rfl
      · obtain ⟨h₁, h₂⟩ := hexec hn
        exact .inr ⟨h₁, h₂, hk.imp (congrArg some) (congrArg some), hk'.imp (congrArg some) (congrArg some)⟩

/-- Every report of a run is a report on the attempt. -/
theorem ReportRun.reported {os : List AttemptOutcome} (h : ReportRun operation attempt os) :
    ∀ o ∈ os, Reported operation attempt o := by
  obtain ⟨hfirst, hnext⟩ := h
  cases os with
  | nil => simp
  | cons o os =>
    have ho : Reported operation attempt o := validateAttemptOutcome_none.mp (hfirst o rfl)
    clear hfirst
    -- each later report is checked as the `current` of its step
    induction os generalizing o with
    | nil => simp [ho]
    | cons o' os ih =>
      obtain ⟨hstep, hrest⟩ := List.isChain_cons_cons.mp hnext
      have ho' : Reported operation attempt o' := (validateAttemptOutcome_some.mp hstep).2.1
      exact List.forall_mem_cons.mpr ⟨ho, ih o' hrest ho'⟩

/-- **No chain of accepted reports launders evidence away.** Along a run of
any length, every report is accepted after every earlier one and after
itself, none claims the request was not dispatched, and what an earlier one
established still stands; and reports accepted after each other establish
the same. -/
theorem ReportRun.evidence_stands {os : List AttemptOutcome} (h : ReportRun operation attempt os) :
    (∀ i j (hj : j < os.length) (hij : i < j),
      validateAttemptOutcome operation attempt (some os[i]) os[j] = .ok () ∧ Keeps os[i] os[j]) ∧
    (∀ o ∈ os, validateAttemptOutcome operation attempt (some o) o = .ok () ∧ o.lifecycle ≠ .notDispatched) ∧
    ∀ a b, validateAttemptOutcome operation attempt (some a) b = .ok () →
      validateAttemptOutcome operation attempt (some b) a = .ok () → SameEvidence a b := by
  have : Trans (fun a b => validateAttemptOutcome operation attempt (some a) b = .ok ())
      (fun a b => validateAttemptOutcome operation attempt (some a) b = .ok ())
      (fun a b => validateAttemptOutcome operation attempt (some a) b = .ok ()) :=
    ⟨validateAttemptOutcome_trans⟩
  refine ⟨fun i j hj hij => ?_, fun o ho => ?_, fun a b => sameEvidence_of_accepted⟩
  · have hacc := List.pairwise_iff_getElem.mp h.next.pairwise i j (by omega) hj hij
    exact ⟨hacc, keeps_of_accepted hacc⟩
  · have hr := h.reported o ho
    exact ⟨validateAttemptOutcome_refl hr, hr.dispatched⟩

def sampleScope : EffectScope := ⟨.sample, .sample, .sample⟩

def sampleOperation : PreparedOperation Unit where
  identity := .sample
  operationClass := .sample
  behaviorRevision := "r1"
  preparedAtMilliseconds := 0
  expiresAtMilliseconds := 1
  effects := [⟨sampleScope, .sample, .append ()⟩]
  protection := .bestEffort
  replay := .unsupported
  reconciliation := none
  command := ⟨.sample, ()⟩

def sampleOutcome (lifecycle : RequestLifecycle) (knowledge : EffectKnowledge) : AttemptOutcome :=
  ⟨.sample, .sample, lifecycle, [⟨sampleScope, knowledge⟩], .unknown⟩

def otherScope : EffectScope := ⟨.sample, ⟨.sample, "another", by decide⟩, .sample⟩

/-- An operation of two effects. -/
def pairOperation : PreparedOperation Unit :=
  { sampleOperation with effects := [⟨sampleScope, .sample, .append ()⟩, ⟨otherScope, .sample, .append ()⟩] }

/-- A report on both, in some order. -/
def pairOutcome (lifecycle : RequestLifecycle) (effects : List EffectOutcome) : AttemptOutcome :=
  ⟨.sample, .sample, lifecycle, effects, .unknown⟩

/-- One effect is applied in part, the request ends without the other, and
the first is found applied: from each report on, what it established
stands. -/
theorem sampleRun_evidence_stands :
    let pending := pairOutcome .mayStillExecute [⟨sampleScope, .partiallyApplied⟩, ⟨otherScope, .unknown⟩]
    let ended := pairOutcome (.terminal .sample .sample) [⟨otherScope, .notApplied⟩, ⟨sampleScope, .partiallyApplied⟩]
    let found := pairOutcome (.terminal .sample .sample) [⟨sampleScope, .applied⟩, ⟨otherScope, .notApplied⟩]
    validateAttemptOutcome pairOperation .sample (some pending) found = .ok () ∧ Keeps pending found ∧
      Keeps ended found := by
  intro pending ended found
  have h : ReportRun pairOperation .sample [pending, ended, found] :=
    ⟨fun o ho => by cases ho; rfl, .cons_cons rfl (.cons_cons rfl (.singleton _))⟩
  obtain ⟨hstands, _⟩ := h.evidence_stands
  obtain ⟨haccepted, hkeeps⟩ := hstands 0 2 (by decide) (by decide)
  exact ⟨haccepted, hkeeps, (hstands 1 2 (by decide) (by decide)).2⟩

/-! ## What a report is checked for -/

/-- The index into the current effects is always there, also for an operation
that was never validated: two outcomes of one operation have its scopes. -/
theorem validateAttemptOutcome_failsIn {previous : Option AttemptOutcome} :
    FailsIn (· = .error .invalidOutcome) (validateAttemptOutcome operation attempt previous o) := by
  have hvalid : ∀ x : AttemptOutcome,
      FailsIn (· = .error .invalidOutcome) (fallible (x.validateFor operation attempt)) :=
    fun x => .mapError (.reject fun _ => rfl)
  refine .bind (hvalid o) fun _ hv => .bind (.reject fun _ => rfl) fun _ hd => ?_
  cases previous with
  | none => exact .pure
  | some previous =>
    refine .bind (hvalid previous) fun _ hv' => .bind (.reject fun _ => rfl) fun _ hd' => .forM fun e he => ?_
    have ho : Reported operation attempt o := ⟨fallible_ok.mp hv, reject_ok.mp hd⟩
    have hp : Reported operation attempt previous := ⟨fallible_ok.mp hv', (not_or.mp (reject_ok.mp hd')).1⟩
    obtain ⟨k, hk⟩ := (hp.scope_iff ho).mp ⟨e.knowledge, he⟩
    have hget := ho.get_effectKnowledge.mpr hk
    refine .bind (.okOr fun hnone => ?_) fun _ _ => .reject fun _ => rfl
    rw [hget] at hnone
    cases hnone

/-- The order of evidence, entry by entry. -/
theorem Reported.le_iff (ha : Reported operation attempt a) (hb : Reported operation attempt b) :
    a.evidence ≤ b.evidence ↔ (a.lifecycle.kind = .terminal → b.lifecycle.kind = .terminal) ∧
      ∀ s k k', ⟨s, k⟩ ∈ a.effects → ⟨s, k'⟩ ∈ b.effects → k.Allows (a.lifecycle.kind = .terminal) k' := by
  rw [Evidence.le_iff, ← checkEffects_ok ha hb (u := ⟨⟩), forM_ok]
  simp only [checkEffect_ok, AttemptOutcome.evidence, decide_eq_true_eq]
  refine and_congr_right fun _ => ⟨fun h s k k' hk hk' => ?_, fun h e he => ?_⟩
  · obtain ⟨k₁, hget, hallows⟩ := h ⟨s, k⟩ hk
    rw [hb.get_effectKnowledge.mpr hk'] at hget
    cases hget
    exact hallows
  · obtain ⟨k', hk'⟩ := (ha.scope_iff hb).mp ⟨e.knowledge, he⟩
    exact ⟨k', hb.get_effectKnowledge.mpr hk', h _ _ _ he hk'⟩

/-- The same outcome but for the order of its effects and its
satisfaction. -/
structure Restates (a b : AttemptOutcome) : Prop where
  operation : a.operation = b.operation
  attempt : a.attempt = b.attempt
  lifecycle : a.lifecycle = b.lifecycle
  effects : a.effects.Perm b.effects

theorem Restates.symm (h : Restates a b) : Restates b a :=
  ⟨h.operation.symm, h.attempt.symm, h.lifecycle.symm, h.effects.symm⟩

theorem Restates.validateFor (h : Restates a b) (hv : a.validateFor operation attempt = .ok ()) :
    b.validateFor operation attempt = .ok () := by
  rw [AttemptOutcome.validateFor_ok] at hv ⊢
  obtain ⟨h₁, h₂, h₃, h₄, h₅⟩ := hv
  have hscopes := h.effects.map (·.scope)
  refine ⟨h.operation ▸ h₁, h.attempt ▸ h₂, hscopes.nodup_iff.mp h₃, fun s => ?_, fun hl e he => ?_⟩
  · rw [← hscopes.mem_iff]
    exact h₄ s
  · exact h₅ (h.lifecycle ▸ hl) e (h.effects.mem_iff.mpr he)

theorem Restates.reported (h : Restates a b) (hr : Reported operation attempt a) : Reported operation attempt b :=
  ⟨h.validateFor hr.valid, h.lifecycle ▸ hr.dispatched⟩

theorem Restates.accepted {a' b' : AttemptOutcome} (ha : Restates a a') (hb : Restates b b')
    (h : validateAttemptOutcome operation attempt (some a) b = .ok ()) :
    validateAttemptOutcome operation attempt (some a') b' = .ok () := by
  rw [validateAttemptOutcome_some] at h ⊢
  obtain ⟨hra, hrb, hle⟩ := h
  rw [hra.le_iff hrb] at hle
  refine ⟨ha.reported hra, hb.reported hrb, ((ha.reported hra).le_iff (hb.reported hrb)).mpr ?_⟩
  rw [← ha.lifecycle, ← hb.lifecycle]
  refine ⟨hle.1, fun s k k' hk hk' => hle.2 s k k' (ha.effects.mem_iff.mpr hk) (hb.effects.mem_iff.mpr hk')⟩

/-- **What an outcome and a transition are checked for.** An outcome of a
valid operation reports its effects, each once, in any order; a transition
is checked scope by scope; and neither check looks at the order of the
effects or at the satisfaction. -/
theorem validateAttemptOutcome_iff [SerdeJson V] {behavior : Behavior} (h : operation.validate behavior = .ok ())
    (attempt : Identity) :
    (∀ o : AttemptOutcome, o.validateFor operation attempt = .ok () ↔
      o.operation = operation.identity ∧ o.attempt = attempt ∧
      (o.effects.map (·.scope)).Perm (operation.effects.map (·.scope)) ∧
      (o.lifecycle = .notDispatched → ∀ e ∈ o.effects, e.knowledge = .notApplied)) ∧
    (∀ previous current : AttemptOutcome,
      validateAttemptOutcome operation attempt (some previous) current = .ok () ↔
        previous.validateFor operation attempt = .ok () ∧ current.validateFor operation attempt = .ok () ∧
        previous.lifecycle ≠ .notDispatched ∧ current.lifecycle ≠ .notDispatched ∧
        (previous.lifecycle.kind = .terminal → current.lifecycle.kind = .terminal) ∧
        ∀ s k k', ⟨s, k⟩ ∈ previous.effects → ⟨s, k'⟩ ∈ current.effects →
          (k = .applied → k' = .applied) ∧
          (k = .partiallyApplied → k' = .partiallyApplied ∨ k' = .applied) ∧
          (k = .notApplied → previous.lifecycle.kind = .terminal → k' = .notApplied)) ∧
    ∀ previous previous' current current' : AttemptOutcome, Restates previous previous' → Restates current current' →
      previous.validateFor operation attempt = previous'.validateFor operation attempt ∧
      validateAttemptOutcome operation attempt none current = validateAttemptOutcome operation attempt none current' ∧
      validateAttemptOutcome operation attempt (some previous) current =
        validateAttemptOutcome operation attempt (some previous') current' := by
  have hscopes : (operation.effects.map (·.scope)).Nodup := (PreparedOperation.validate_ok.mp h).scopes
  refine ⟨fun o => ?_, fun previous current => ?_, fun previous previous' current current' hp hc => ⟨?_, ?_, ?_⟩⟩
  · rw [AttemptOutcome.validateFor_ok]
    refine and_congr_right fun _ => and_congr_right fun _ => ⟨fun h => ?_, fun h => ?_⟩
    · obtain ⟨hd, hm, hn⟩ := h
      exact ⟨(List.perm_ext_iff_of_nodup hd hscopes).mpr hm, hn⟩
    · obtain ⟨hperm, hn⟩ := h
      exact ⟨hperm.nodup_iff.mpr hscopes, fun s => hperm.mem_iff, hn⟩
  · have hallows : ∀ k k' : EffectKnowledge, k.Allows (previous.lifecycle.kind = .terminal) k' ↔
        (k = .applied → k' = .applied) ∧ (k = .partiallyApplied → k' = .partiallyApplied ∨ k' = .applied) ∧
        (k = .notApplied → previous.lifecycle.kind = .terminal → k' = .notApplied) := fun k k' => by
      cases k <;> simp [EffectKnowledge.Allows]
    simp only [← hallows]
    rw [validateAttemptOutcome_some]
    refine ⟨fun h => ?_, fun h => ?_⟩
    · obtain ⟨hp, hc, hle⟩ := h
      exact ⟨hp.valid, hc.valid, hp.dispatched, hc.dispatched, (hp.le_iff hc).mp hle⟩
    · obtain ⟨hp, hc, hdp, hdc, hle⟩ := h
      have hrp : Reported operation attempt previous := ⟨hp, hdp⟩
      exact ⟨hrp, ⟨hc, hdc⟩, (hrp.le_iff ⟨hc, hdc⟩).mpr hle⟩
  · exact FailsIn.eq (.reject fun _ => rfl) (.reject fun _ => rfl) ⟨hp.validateFor, hp.symm.validateFor⟩
  · refine validateAttemptOutcome_failsIn.eq validateAttemptOutcome_failsIn ?_
    rw [validateAttemptOutcome_none, validateAttemptOutcome_none]
    exact ⟨hc.reported, hc.symm.reported⟩
  · exact validateAttemptOutcome_failsIn.eq validateAttemptOutcome_failsIn
      ⟨hp.accepted hc, hp.symm.accepted hc.symm⟩

def reportedBehavior : Behavior where
  revision := "r1"
  subjectRoles := .new
  units := .new
  operations := [⟨.sample, .collect [.sample], .collect [.bestEffort], false, .new⟩]

def reportedOperation : PreparedOperation SampleJson where
  identity := .sample
  operationClass := .sample
  behaviorRevision := "r1"
  preparedAtMilliseconds := 0
  expiresAtMilliseconds := 1
  effects := [⟨sampleScope, .sample, .append (.text 0)⟩]
  protection := .bestEffort
  replay := .unsupported
  reconciliation := none
  command := ⟨.sample, .text 0⟩

def reportedPair : PreparedOperation SampleJson :=
  { reportedOperation with
    effects := [⟨sampleScope, .sample, .append (.text 0)⟩, ⟨otherScope, .sample, .append (.text 0)⟩] }

/-- An effect once applied is not taken back, wherever the next report lists
it. -/
theorem reportedPair_transition :
    let previous := pairOutcome .mayStillExecute [⟨sampleScope, .applied⟩, ⟨otherScope, .unknown⟩]
    let kept := pairOutcome (.terminal .sample .sample) [⟨otherScope, .notApplied⟩, ⟨sampleScope, .applied⟩]
    let taken := pairOutcome (.terminal .sample .sample) [⟨otherScope, .applied⟩, ⟨sampleScope, .notApplied⟩]
    validateAttemptOutcome reportedPair .sample (some previous) kept = .ok () ∧
      validateAttemptOutcome reportedPair .sample (some previous) taken ≠ .ok () := by
  intro previous kept taken
  have hvalid : reportedPair.validate reportedBehavior = .ok () := rfl
  obtain ⟨_, htransitions, hrestates⟩ := validateAttemptOutcome_iff hvalid .sample
  refine ⟨?_, fun h => ?_⟩
  · let listed := pairOutcome (.terminal .sample .sample) [⟨sampleScope, .applied⟩, ⟨otherScope, .notApplied⟩]
    have hlisted : validateAttemptOutcome reportedPair .sample (some previous) listed = .ok () := rfl
    have hsame := hrestates previous previous listed kept ⟨rfl, rfl, rfl, .refl _⟩ ⟨rfl, rfl, rfl, .swap _ _ _⟩
    exact hsame.2.2 ▸ hlisted
  · obtain ⟨_, _, _, _, _, hscopes⟩ := (htransitions _ _).mp h
    have hkept := (hscopes sampleScope .applied .notApplied (by decide) (by decide)).1 rfl
    cases hkept

end ProviderSdk
