/-
Monitors: a state that accepts or rejects events one at a time, and goes on
after a rejection.

A monitor is `Inert` when a rejection leaves its state alone; then a feed
and its accepted events lead to the same state, and deleting rejected events
changes no other decision. It `Recognizes` a language when, as long as the
history stays `feasible`, it accepts exactly the events that keep the
accepted history in the language.
-/
import Mathlib.Computability.Language
import Mathlib.Data.List.Induction

namespace Monitor

universe u
variable {σ α ε : Type u}

/-- One event: the decision, and the state after it. -/
abbrev Step (σ α ε : Type u) : Type u := σ → α → Except ε PUnit × σ

/-- The state after a feed. -/
def final (step : Step σ α ε) (s : σ) (feed : List α) : σ := feed.foldl (fun s a => (step s a).2) s

/-- The decision on each event of a feed. -/
def decisions (step : Step σ α ε) : σ → List α → List (Except ε PUnit)
  | _, [] => []
  | s, a :: feed => (step s a).1 :: decisions step (step s a).2 feed

/-- The events of a feed that are accepted. -/
def accepted (step : Step σ α ε) : σ → List α → List α
  | _, [] => []
  | s, a :: feed =>
    if (step s a).1.isOk then a :: accepted step (step s a).2 feed else accepted step (step s a).2 feed

variable {step : Step σ α ε} {s : σ} {feed : List α}

theorem final_concat {a : α} : final step s (feed ++ [a]) = (step (final step s feed) a).2 := by
  simp [final]

theorem accepted_concat {a : α} : accepted step s (feed ++ [a]) =
    accepted step s feed ++ if (step (final step s feed) a).1.isOk then [a] else [] := by
  induction feed generalizing s with
  | nil => by_cases h : (step s a).1.isOk = true <;> simp [accepted, final, h]
  | cons b feed ih =>
    have hf : final step s (b :: feed) = final step (step s b).2 feed := rfl
    by_cases h : (step s b).1.isOk = true <;> simp [accepted, h, ih, hf]

theorem accepted_sublist : (accepted step s feed).Sublist feed := by
  induction feed generalizing s with
  | nil => exact .slnil
  | cons a feed ih =>
    simp only [accepted]
    split
    · exact ih.cons_cons a
    · exact ih.cons a

/-! ## Rejections that leave no trace -/

/-- A rejected event leaves the state as it was. -/
def Inert (step : Step σ α ε) : Prop := ∀ s a, (step s a).1.isOk = false → (step s a).2 = s

/-- Deleting a rejected event changes no other decision. -/
theorem Inert.decisions_eraseIdx (h : Inert step) {i : Nat} {e : ε}
    (hi : (decisions step s feed)[i]? = some (.error e)) :
    decisions step s (feed.eraseIdx i) = (decisions step s feed).eraseIdx i := by
  induction feed generalizing s i with
  | nil => simp [decisions]
  | cons a feed ih =>
    cases i with
    | zero =>
      have he : (step s a).1 = .error e := by simpa [decisions] using hi
      have hs : (step s a).2 = s := h s a (by rw [he]; rfl)
      simp [decisions, hs]
    | succ i =>
      have hi' : (decisions step (step s a).2 feed)[i]? = some (.error e) := by simpa [decisions] using hi
      simp [decisions, ih hi']

/-- Fed only the accepted events, a monitor accepts them all again. -/
theorem Inert.decisions_accepted (h : Inert step) :
    decisions step s (accepted step s feed) = (decisions step s feed).filter (·.isOk) := by
  induction feed generalizing s with
  | nil => rfl
  | cons a feed ih =>
    by_cases ha : (step s a).1.isOk = true
    · simp [accepted, decisions, ha, ih]
    · have hs : (step s a).2 = s := h s a (Bool.eq_false_iff.mpr ha)
      simp [accepted, decisions, ha, hs, ih]

/-! ## Languages -/

/-- The state stands for the accepted history, and the next event is
accepted exactly when it keeps the history in the language. -/
structure Recognizes (step : Step σ α ε) (language : Language α) (feasible : List α → Prop)
    (stands : σ → List α → Prop) : Prop where
  inert : Inert step
  mono : ∀ {w w' : List α}, w.Sublist w' → feasible w' → feasible w
  accepts : ∀ {s w a}, stands s w → feasible (w ++ [a]) → ((step s a).1.isOk = true ↔ w ++ [a] ∈ language)
  next : ∀ {s w a}, stands s w → feasible (w ++ [a]) → (step s a).1.isOk = true → stands (step s a).2 (w ++ [a])

variable {language : Language α} {feasible : List α → Prop} {stands : σ → List α → Prop}

/-- What a state stands for is kept along a feed, rejections and all. -/
theorem Recognizes.final (h : Recognizes step language feasible stands) (h₀ : stands s [])
    (hfeed : feasible feed) : stands (Monitor.final step s feed) (accepted step s feed) := by
  induction feed using List.reverseRecOn with
  | nil => exact h₀
  | append_singleton feed a ih =>
    have ih := ih (h.mono (List.sublist_append_left _ _) hfeed)
    have hw : feasible (accepted step s feed ++ [a]) :=
      h.mono (accepted_sublist.append (List.Sublist.refl [a])) hfeed
    rw [final_concat, accepted_concat]
    by_cases ha : (step (Monitor.final step s feed) a).1.isOk = true
    · rw [if_pos ha]
      exact h.next ih hw ha
    · rw [if_neg ha, List.append_nil, h.inert _ _ (Bool.eq_false_iff.mpr ha)]
      exact ih

/-- Each event of a feed is accepted exactly when it keeps the events
accepted before it in the language. -/
theorem Recognizes.decides (h : Recognizes step language feasible stands) (h₀ : stands s [])
    {pre post : List α} {a : α} (hfeed : feasible (pre ++ a :: post)) :
    (step (Monitor.final step s pre) a).1.isOk = true ↔ accepted step s pre ++ [a] ∈ language := by
  have hpre : feasible (pre ++ [a]) := by
    refine h.mono ?_ hfeed
    exact (List.Sublist.refl pre).append (List.singleton_sublist.mpr List.mem_cons_self)
  have hw : feasible (accepted step s pre ++ [a]) :=
    h.mono (accepted_sublist.append (List.Sublist.refl [a])) hpre
  exact h.accepts (h.final h₀ (h.mono (List.sublist_append_left _ _) hpre)) hw

/-- The accepted events are a word of the language. -/
theorem Recognizes.accepted_mem (h : Recognizes step language feasible stands) (h₀ : stands s [])
    (hnil : [] ∈ language) (hfeed : feasible feed) : accepted step s feed ∈ language := by
  induction feed using List.reverseRecOn with
  | nil => exact hnil
  | append_singleton feed a ih =>
    rw [accepted_concat]
    by_cases ha : (step (Monitor.final step s feed) a).1.isOk = true
    · rw [if_pos ha]
      exact (h.decides h₀ hfeed).mp ha
    · rw [if_neg ha, List.append_nil]
      exact ih (h.mono (List.sublist_append_left _ _) hfeed)

/-! ## Letters, then at most one last letter -/

/-- The words of one letter in `P`. -/
def letters (P : α → Prop) : Language α := {w | ∃ a, P a ∧ w = [a]}

open Computability in
theorem mem_letters_kstar {P : α → Prop} {w : List α} : w ∈ (letters P)∗ ↔ ∀ a ∈ w, P a := by
  rw [Language.mem_kstar]
  refine ⟨fun h a ha => ?_, fun h => ⟨w.map fun a => [a], (List.flatMap_singleton' w).symm, fun x hx => ?_⟩⟩
  · obtain ⟨words, hw, hP⟩ := h
    rw [hw, List.mem_flatten] at ha
    obtain ⟨word, hword, ha⟩ := ha
    obtain ⟨b, hb, rfl⟩ := hP word hword
    exact List.mem_singleton.mp ha ▸ hb
  · obtain ⟨a, ha, rfl⟩ := List.mem_map.mp hx
    exact ⟨a, h a ha, rfl⟩

open Computability in
/-- The last letter may be of either kind; the letters before it may not. -/
theorem concat_mem_letters {P Q : α → Prop} {w : List α} {a : α} :
    w ++ [a] ∈ (letters P)∗ * (1 + letters Q) ↔ (∀ b ∈ w, P b) ∧ (P a ∨ Q a) := by
  rw [Language.mem_mul]
  refine ⟨fun h => ?_, fun h => ?_⟩
  · obtain ⟨front, hfront, last, hlast, he⟩ := h
    rw [mem_letters_kstar] at hfront
    rcases hlast with hlast | ⟨b, hb, rfl⟩
    · obtain rfl : last = [] := hlast
      rw [List.append_nil] at he
      subst he
      exact ⟨fun b hb => hfront b (by simp [hb]), .inl (hfront a (by simp))⟩
    · obtain ⟨rfl, hba⟩ := List.append_inj' he rfl
      obtain rfl : b = a := by simpa using hba
      exact ⟨hfront, .inr hb⟩
  · obtain ⟨hw, ha⟩ := h
    rcases ha with ha | ha
    · refine ⟨w ++ [a], mem_letters_kstar.mpr fun b hb => ?_, [], .inl rfl, by simp⟩
      rcases List.mem_append.mp hb with hb | hb
      · exact hw b hb
      · exact List.mem_singleton.mp hb ▸ ha
    · exact ⟨w, mem_letters_kstar.mpr hw, [a], .inr ⟨a, ha, rfl⟩, rfl⟩

end Monitor
