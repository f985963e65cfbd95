/-
Requests that are sent again.

A request is sent until an answer does not call for it again, and others act
before each send. Where only a send that changed nothing is answered so, all
the sends together do what the last one does (`Sends.as_one`).
-/
import Mathlib.Logic.Relation

namespace Retry

open Relation

variable {σ ρ : Type} {sent : σ → ρ → σ → Prop} {others : σ → σ → Prop} {again : ρ → Prop}
variable {s t u : σ} {r last : ρ} {earlier : List ρ}

/-- The sends of a request, by the answers to the earlier ones and to the last. -/
inductive Sends (sent : σ → ρ → σ → Prop) (others : σ → σ → Prop) (again : ρ → Prop) : σ → List ρ → ρ → σ → Prop
  | last {s t u : σ} {r : ρ} : ReflTransGen others s t → sent t r u → Sends sent others again s [] r u
  | again {s t u v : σ} {r last : ρ} {earlier : List ρ} : ReflTransGen others s t → sent t r u → again r →
    Sends sent others again u earlier last v → Sends sent others again s (r :: earlier) last v

/-- A send is answered by calling for another only where it changed nothing. -/
def AgainKeeps (sent : σ → ρ → σ → Prop) (again : ρ → Prop) : Prop := ∀ s r t, sent s r t → again r → t = s

theorem Sends.earlier_again (h : Sends sent others again s earlier last u) : ∀ r ∈ earlier, again r := by
  induction h with
  | last _ _ => simp
  | again _ _ ha _ ih => exact List.forall_mem_cons.mpr ⟨ha, ih⟩

/-- The sends are one send, after all that others did. -/
theorem Sends.as_one (hkeeps : AgainKeeps sent again) (h : Sends sent others again s earlier last u) :
    ∃ t, ReflTransGen others s t ∧ sent t last u := by
  induction h with
  | last ho hs => exact ⟨_, ho, hs⟩
  | again ho hs ha _ ih =>
    obtain ⟨t, ho', hs'⟩ := ih
    rw [hkeeps _ _ _ hs ha] at ho'
    exact ⟨t, ho.trans ho', hs'⟩

/-- What others leave alone, they leave alone however often they act. -/
theorem others_keep {α : Type} {f : σ → α} (hf : ∀ s t, others s t → f t = f s) (h : ReflTransGen others s t) :
    f t = f s := by
  induction h with
  | refl => rfl
  | tail _ hstep ih => exact (hf _ _ hstep).trans ih

end Retry
