/-
Intentions (`completion_operation.rs`) and how they travel
(`completion_wire.rs`).

An intention has public fields, so an invalid one can be built and sent. The
decoder refuses exactly those: what the collection limit adds is no further
condition, as no valid progress lists more units than its domain has.
-/
import ProviderSdk.PreparedOperation
import ProviderSdk.CompletionWire

namespace ProviderSdk

open Checks Codec

structure Intention where
  scope : EffectScope
  domain : Domain
  baseline : Progress
  desired : Progress

def Intention.validate (self : Intention) : Except OperationError Unit := do
  ofModel (self.baseline.validate self.domain)
  ofModel (self.desired.validate self.domain)
  reject (self.baseline.kind ≠ self.desired.kind) .changedRepresentation

/-- An intention `Intention::validate` accepts. -/
structure Intention.Valid (i : Intention) : Prop where
  baseline : i.baseline.Valid i.domain
  desired : i.desired.Valid i.domain
  representation : i.baseline.kind = i.desired.kind

theorem Intention.validate_ok {i : Intention} {u : Unit} : i.validate = .ok u ↔ i.Valid := by
  simp only [validate, bind_ok, ofModel_ok, Progress.validate_ok, exists_const, reject_ok, not_not, ne_eq]
  refine ⟨fun h => ?_, fun h => ⟨h.baseline, h.desired, h.representation⟩⟩
  obtain ⟨hb, hd, hk⟩ := h
  exact ⟨hb, hd, hk⟩

def Intention.tryFrom (value : V1.CompletionIntention) : Except WireError Intention := do
  let scope ← EffectScope.tryFrom (← required value.scope "intention.scope")
  let domain ← Domain.tryFrom (← required value.domain "intention.domain")
  let baseline ← Progress.tryFrom (← required value.baseline "intention.baseline")
  let desired ← Progress.tryFrom (← required value.desired "intention.desired")
  let intention : Intention := { scope, domain, baseline, desired }
  fromOperation intention.validate
  pure intention

def Intention.into (self : Intention) : V1.CompletionIntention where
  scope := some self.scope.into
  domain := some self.domain.into
  baseline := some self.baseline.into
  desired := some self.desired.into

/-- An intention is read back where it is valid, and nowhere else. -/
theorem Intention.tryFrom_returns (i : Intention) : Returns Intention.tryFrom Intention.into i.Valid i := by
  intro i'
  simp only [tryFrom, into, bind_ok, required_ok, Option.some.injEq, exists_eq_left', EffectScope.tryFrom_into,
    Except.ok.injEq, Domain.tryFrom_into, i.baseline.tryFrom_returns _, i.desired.tryFrom_returns _, fromOperation_ok,
    validate_ok, pure_ok, and_assoc, exists_and_left, exists_const]
  refine ⟨fun h => ?_, fun h => ?_⟩
  · obtain ⟨_, _, hv, he⟩ := h
    exact ⟨hv, he⟩
  · obtain ⟨hv, he⟩ := h
    exact ⟨hv.baseline.listed, hv.desired.listed, hv, he⟩

/-- **One verdict on an intention on either side of the wire.** Whatever is
in it, it is decoded exactly where it is valid, and then as itself. -/
theorem Intention.tryFrom_into_iff (i : Intention) :
    ((∃ d, Intention.tryFrom i.into = .ok d) ↔ i.validate = .ok ()) ∧
      ∀ d, Intention.tryFrom i.into = .ok d → d = i := by
  have hreturns := i.tryFrom_returns
  rw [validate_ok]
  refine ⟨⟨fun h => ?_, fun hv => ⟨i, hreturns.ok hv⟩⟩, fun d hd => ((hreturns d).mp hd).2.symm⟩
  obtain ⟨d, hd⟩ := h
  exact ((hreturns d).mp hd).1

end ProviderSdk
