/-
How outcomes of attempts travel (`completion_wire.rs`).

An outcome loses nothing on the wire in either direction: a typed outcome is
read back exactly where it is valid for its operation, and an accepted
message is the one its outcome is sent as. The decoder's limit on effects is
no further condition, as a valid operation has no more of them.
-/
import ProviderSdk.AttemptOutcome
import ProviderSdk.CompletionWire

namespace ProviderSdk

open Checks Codec

variable {V : Type}

/-! ## Codes -/

/-- The `match` on a knowledge in `decode_outcome`. -/
def decodeKnowledge (value : Int32) : Except WireError EffectKnowledge :=
  match V1.CompletionEffectKnowledge.tryFrom value with
  | some .unknown => pure .unknown
  | some .notApplied => pure .notApplied
  | some .applied => pure .applied
  | some .partiallyApplied => pure .partiallyApplied
  | _ => throw (.invalidEnum "outcome.effect.knowledge")

/-- The `match` on a knowledge in `From<AttemptOutcome>`. -/
def encodeKnowledge (value : EffectKnowledge) : Int32 :=
  match value with
  | .unknown => V1.CompletionEffectKnowledge.number .unknown
  | .notApplied => V1.CompletionEffectKnowledge.number .notApplied
  | .applied => V1.CompletionEffectKnowledge.number .applied
  | .partiallyApplied => V1.CompletionEffectKnowledge.number .partiallyApplied

def decodeSatisfaction (value : Int32) : Except WireError Satisfaction :=
  match V1.CompletionSatisfaction.tryFrom value with
  | some .unknown => pure .unknown
  | some .satisfied => pure .satisfied
  | some .unsatisfied => pure .unsatisfied
  | _ => throw (.invalidEnum "outcome.satisfaction")

def encodeSatisfaction (value : Satisfaction) : Int32 :=
  match value with
  | .unknown => V1.CompletionSatisfaction.number .unknown
  | .satisfied => V1.CompletionSatisfaction.number .satisfied
  | .unsatisfied => V1.CompletionSatisfaction.number .unsatisfied

@[simp] theorem decodeKnowledge_encode (k : EffectKnowledge) : decodeKnowledge (encodeKnowledge k) = .ok k := by
  cases k <;> rfl

@[simp] theorem decodeSatisfaction_encode (s : Satisfaction) : decodeSatisfaction (encodeSatisfaction s) = .ok s := by
  cases s <;> rfl

theorem decodeKnowledge_restores : Restores decodeKnowledge encodeKnowledge where
  of_ok h := by
    unfold decodeKnowledge at h
    split at h <;> cases h <;> rename_i hk <;> exact V1.CompletionEffectKnowledge.tryFrom_eq_some.mp hk

theorem decodeSatisfaction_restores : Restores decodeSatisfaction encodeSatisfaction where
  of_ok h := by
    unfold decodeSatisfaction at h
    split at h <;> cases h <;> rename_i hs <;> exact V1.CompletionSatisfaction.tryFrom_eq_some.mp hs

/-! ## Lifecycles and effects -/

/-- The `match` on a lifecycle in `decode_outcome`. -/
def decodeLifecycle (value : V1.CompletionLifecycle) : Except WireError RequestLifecycle :=
  match value with
  | .notDispatched => pure .notDispatched
  | .mayStillExecute => pure .mayStillExecute
  | .terminal value => do
    let evidenceKind ← fromModel (Name.new value.kind)
    let evidence ← Identity.tryFrom (← required value.identity "outcome.terminal.identity")
    pure (.terminal evidenceKind evidence)

/-- The `match` on a lifecycle in `From<AttemptOutcome>`. -/
def encodeLifecycle (value : RequestLifecycle) : V1.CompletionLifecycle :=
  match value with
  | .notDispatched => .notDispatched
  | .mayStillExecute => .mayStillExecute
  | .terminal evidenceKind evidence => .terminal { kind := evidenceKind.value, identity := some evidence.into }

/-- The body of the map over the effects in `decode_outcome`. -/
def EffectOutcome.tryFrom (effect : V1.CompletionEffectOutcome) : Except WireError EffectOutcome := do
  let scope ← EffectScope.tryFrom (← required effect.scope "outcome.effect.scope")
  let knowledge ← decodeKnowledge effect.knowledge
  pure { scope, knowledge }

def EffectOutcome.into (self : EffectOutcome) : V1.CompletionEffectOutcome where
  scope := some self.scope.into
  knowledge := encodeKnowledge self.knowledge

@[simp] theorem decodeLifecycle_encode (l : RequestLifecycle) : decodeLifecycle (encodeLifecycle l) = .ok l := by
  cases l with
  | notDispatched => rfl
  | mayStillExecute => rfl
  | terminal kind evidence => simp [decodeLifecycle, encodeLifecycle]

@[simp] theorem EffectOutcome.tryFrom_into (e : EffectOutcome) : EffectOutcome.tryFrom e.into = .ok e := by
  simp [tryFrom, into]

theorem decodeLifecycle_restores : Restores decodeLifecycle encodeLifecycle where
  of_ok {w l} h := by
    cases w with
    | notDispatched =>
      cases h
      rfl
    | mayStillExecute =>
      cases h
      rfl
    | terminal value =>
      simp only [decodeLifecycle, bind_ok, required_ok, fromModel_ok, Name.new_ok, pure_ok] at h
      obtain ⟨kind, hkind, i, hi, evidence, hevidence, rfl⟩ := h
      rw [encodeLifecycle, hkind, Identity.tryFrom_restores.of_ok hevidence, ← hi]

theorem EffectOutcome.tryFrom_restores : Restores EffectOutcome.tryFrom EffectOutcome.into where
  of_ok {w e} h := by
    simp only [tryFrom, bind_ok, required_ok, pure_ok] at h
    obtain ⟨s, hs, scope, hscope, knowledge, hknowledge, rfl⟩ := h
    rw [into, EffectScope.tryFrom_restores.of_ok hscope, decodeKnowledge_restores.of_ok hknowledge, ← hs]

/-! ## Outcomes -/

def decodeOutcome (prepared : PreparedOperation V) (attempt : Identity) (value : V1.CompletionAttemptOutcome) :
    Except WireError AttemptOutcome := do
  reject (value.effects.length > maximumEffects) .limitExceeded
  let effects ← value.effects.mapM EffectOutcome.tryFrom
  let operation ← Identity.tryFrom (← required value.operation "outcome.operation")
  let attempted ← Identity.tryFrom (← required value.attempt "outcome.attempt")
  let lifecycle ← decodeLifecycle (← required value.lifecycle "outcome.lifecycle")
  let satisfaction ← decodeSatisfaction value.satisfaction
  let decoded : AttemptOutcome := { operation, attempt := attempted, lifecycle, effects, satisfaction }
  fromOperation (decoded.validateFor prepared attempt)
  pure decoded

def AttemptOutcome.into (self : AttemptOutcome) : V1.CompletionAttemptOutcome where
  operation := some self.operation.into
  attempt := some self.attempt.into
  lifecycle := some (encodeLifecycle self.lifecycle)
  effects := self.effects.map EffectOutcome.into
  satisfaction := encodeSatisfaction self.satisfaction

variable {operation : PreparedOperation V} {attempt : Identity}

/-- An outcome that reports the scopes of an operation has no more effects
than the operation. -/
theorem AttemptOutcome.effects_le {o : AttemptOutcome} {u : Unit} (h : o.validateFor operation attempt = .ok u) :
    o.effects.length ≤ operation.effects.length := by
  obtain ⟨_, _, hd, hm, _⟩ := validateFor_ok.mp h
  have hsub := (hd.subperm fun s hs => (hm s).mp hs).length_le
  rwa [List.length_map, List.length_map] at hsub

theorem decodeOutcome_into (h : operation.effects.length ≤ maximumEffects) (o : AttemptOutcome) :
    Returns (decodeOutcome operation attempt) AttemptOutcome.into (o.validateFor operation attempt = .ok ()) o := by
  have heffects : (o.effects.map EffectOutcome.into).mapM EffectOutcome.tryFrom = .ok o.effects :=
    (returns_list (P := fun _ => True) fun e _ e' => by simp).ok (by simp)
  intro d
  simp only [decodeOutcome, AttemptOutcome.into, bind_ok, reject_ok, List.length_map, gt_iff_lt, Nat.not_lt,
    exists_const, heffects, Except.ok.injEq, exists_eq_left', required_ok, Option.some.injEq, Identity.tryFrom_into,
    decodeLifecycle_encode, decodeSatisfaction_encode, fromOperation_ok, pure_ok]
  refine ⟨fun hd => ?_, fun hd => ?_⟩
  · obtain ⟨_, _, hv, he⟩ := hd
    exact ⟨hv, he⟩
  · obtain ⟨hv, he⟩ := hd
    exact ⟨Nat.le_trans (AttemptOutcome.effects_le hv) h, (), hv, he⟩

theorem decodeOutcome_restores : Restores (decodeOutcome operation attempt) AttemptOutcome.into where
  of_ok {w o} h := by
    simp only [decodeOutcome, bind_ok, required_ok, pure_ok] at h
    obtain ⟨_, _, effects, heffects, i, hi, op, hop, j, hj, att, hatt, k, hk, lifecycle, hlifecycle, satisfaction,
      hsatisfaction, _, _, rfl⟩ := h
    rw [AttemptOutcome.into, (restores_list EffectOutcome.tryFrom_restores).of_ok heffects,
      Identity.tryFrom_restores.of_ok hop, Identity.tryFrom_restores.of_ok hatt,
      decodeLifecycle_restores.of_ok hlifecycle, decodeSatisfaction_restores.of_ok hsatisfaction, ← hi, ← hj, ← hk]

/-- **The outcome codec loses nothing.** Of a valid operation, exactly the
valid outcomes are read back, as they were sent; and exactly the messages
outcomes are sent as are accepted. -/
theorem decodeOutcome_bijective [SerdeJson V] {behavior : Behavior} (h : operation.validate behavior = .ok ())
    (attempt : Identity) :
    (∀ o : AttemptOutcome, ((∃ d, decodeOutcome operation attempt o.into = .ok d) ↔
        o.validateFor operation attempt = .ok ()) ∧
      ∀ d, decodeOutcome operation attempt o.into = .ok d → d = o) ∧
    ∀ w o, decodeOutcome operation attempt w = .ok o → o.into = w := by
  have hreturns : ∀ o : AttemptOutcome, Returns (decodeOutcome operation attempt) AttemptOutcome.into
      (o.validateFor operation attempt = .ok ()) o :=
    decodeOutcome_into (PreparedOperation.validate_ok.mp h).effects.2
  refine ⟨fun o => ⟨⟨fun hd => ?_, fun hv => ⟨o, (hreturns o).ok hv⟩⟩, fun d hd => ?_⟩, fun w o hd => ?_⟩
  · obtain ⟨d, hd⟩ := hd
    exact ((hreturns o d).mp hd).1
  · exact ((hreturns o d).mp hd).2.symm
  · exact decodeOutcome_restores.of_ok hd

/-- An outcome with its effect applied travels. -/
theorem sampleOutcome_travels :
    ∃ d, decodeOutcome reportedOperation .sample (sampleOutcome (.terminal .sample .sample) .applied).into = .ok d :=
  have h : reportedOperation.validate reportedBehavior = .ok () := rfl
  ((decodeOutcome_bijective h .sample).1 _).1.mpr rfl

end ProviderSdk
