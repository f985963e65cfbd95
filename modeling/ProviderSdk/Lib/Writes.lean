/-
Writes to a shared state that add to it.

A write adds where it keeps what the state holds and doing it again changes
nothing. A state that only such writes reach never falls back behind what it
once was; where they commute besides, it depends on which of them were done,
not on their order nor on how often (`run_eq`).
-/
import Mathlib.Order.Basic

namespace Writes

section

variable {σ ι : Type} {write : ι → σ → σ} {writes writes' : List ι} {s : σ} {i : ι}

/-- The state after writes are done one after the other. -/
def run (write : ι → σ → σ) (writes : List ι) (s : σ) : σ := writes.foldl (fun s i => write i s) s

@[simp] theorem run_nil : run write [] s = s := rfl

@[simp] theorem run_cons : run write (i :: writes) s = run write writes (write i s) := rfl

theorem run_append : run write (writes ++ writes') s = run write writes' (run write writes s) := List.foldl_append

/-- Writes whose order does not matter. -/
def Commute (write : ι → σ → σ) (writes : List ι) : Prop :=
  ∀ i ∈ writes, ∀ j ∈ writes, ∀ s, write i (write j s) = write j (write i s)

theorem Commute.mono (h : Commute write writes) (hsub : writes' ⊆ writes) : Commute write writes' :=
  fun i hi j hj => h i (hsub hi) j (hsub hj)

/-- A write that is done anyway may be done first as well. -/
theorem run_absorbs (h : Commute write writes) (hsettles : ∀ s, write i (write i s) = write i s) (hi : i ∈ writes) :
    run write writes (write i s) = run write writes s := by
  induction writes generalizing s with
  | nil => cases hi
  | cons j writes ih =>
    rw [run_cons, run_cons]
    by_cases hij : i = j
    · subst hij
      rw [hsettles]
    · have hmem : i ∈ writes := (List.mem_cons.mp hi).resolve_left hij
      rw [h j List.mem_cons_self i hi]
      exact ih (h.mono (List.subset_cons_self _ _)) hmem

end

variable {σ ι : Type} [PartialOrder σ]

/-- A write that keeps what a state holds. -/
def Grows (write : σ → σ) : Prop := ∀ s, s ≤ write s

structure Adds (write : σ → σ) : Prop where
  grows : Grows write
  settles : ∀ s, write (write s) = write s

variable {write : ι → σ → σ} {writes writes' : List ι} {s : σ} {i : ι}

theorem run_grows (h : ∀ i ∈ writes, Grows (write i)) : s ≤ run write writes s := by
  induction writes generalizing s with
  | nil => exact le_refl _
  | cons i writes ih =>
    rw [run_cons]
    exact (h i List.mem_cons_self s).trans (ih fun j hj => h j (List.mem_cons_of_mem _ hj))

theorem run_absorbs_all (h : Commute write writes) (hadds : ∀ i ∈ writes, Adds (write i)) (hsub : writes' ⊆ writes) :
    run write writes (run write writes' s) = run write writes s := by
  induction writes' generalizing s with
  | nil => rfl
  | cons i writes' ih =>
    have hi : i ∈ writes := hsub List.mem_cons_self
    rw [run_cons, ih (fun j hj => hsub (List.mem_cons_of_mem _ hj)), run_absorbs h (hadds i hi).settles hi]

/-- Fewer writes leave less. -/
theorem run_le (h : Commute write writes) (hadds : ∀ i ∈ writes, Adds (write i)) (hsub : writes' ⊆ writes) :
    run write writes' s ≤ run write writes s := by
  rw [← run_absorbs_all h hadds hsub]
  exact run_grows fun i hi => (hadds i hi).grows

/-- The same writes leave the same, in any order and done any number of
times. -/
theorem run_eq (h : Commute write writes) (hadds : ∀ i ∈ writes, Adds (write i))
    (hmem : ∀ i, i ∈ writes ↔ i ∈ writes') : run write writes s = run write writes' s := by
  have hsub : writes' ⊆ writes := fun i hi => (hmem i).mpr hi
  have hsub' : writes ⊆ writes' := fun i hi => (hmem i).mp hi
  have hadds' : ∀ i ∈ writes', Adds (write i) := fun i hi => hadds i (hsub hi)
  exact le_antisymm (run_le (h.mono hsub) hadds' hsub') (run_le h hadds hsub)

end Writes
