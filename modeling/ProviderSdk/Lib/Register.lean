/-
Registers: a cell that takes an item, or keeps what it holds.

A register is `Ordered` by a value of its items when it takes the items of
`P`, and after one of them those whose value is no less. What it then holds
is maximal among the items fed to it, whatever their order, and the greatest
of them where their values can be compared. Cells that share a feed do not
see how their items are interleaved (`feedAll_interleaved`).
-/
import Mathlib.Data.List.Induction
import Mathlib.Order.Directed
import Mathlib.Order.Preorder.Chain

namespace Register

variable {β γ : Type} [Preorder γ] {accepts : Option β → β → Bool} {P : β → Prop} {value : β → γ}

def take (accepts : Option β → β → Bool) (held : Option β) (b : β) : Option β :=
  if accepts held b then some b else held

/-- What a register holds after a feed. -/
def holds (accepts : Option β → β → Bool) (feed : List β) : Option β := feed.foldl (take accepts) none

structure Ordered (accepts : Option β → β → Bool) (P : β → Prop) (value : β → γ) : Prop where
  first : ∀ {b}, accepts none b = true ↔ P b
  next : ∀ {a b}, accepts (some a) b = true ↔ P a ∧ P b ∧ value a ≤ value b

theorem holds_concat {feed : List β} {b : β} :
    holds accepts (feed ++ [b]) = take accepts (holds accepts feed) b := by
  simp [holds]

/-- What is held is replaced by nothing of less value. -/
theorem Ordered.take_some (h : Ordered accepts P value) {a b : β} (ha : P a) :
    ∃ r, take accepts (some a) b = some r ∧ P r ∧ value a ≤ value r := by
  by_cases hb : accepts (some a) b = true
  · obtain ⟨_, hpb, hle⟩ := h.next.mp hb
    exact ⟨b, if_pos hb, hpb, hle⟩
  · exact ⟨a, if_neg hb, ha, le_refl _⟩

/-- The items of a feed that may be taken. -/
def taken (P : β → Prop) (feed : List β) : Set β := {b | b ∈ feed ∧ P b}

theorem mem_taken {feed : List β} {b : β} : b ∈ taken P feed ↔ b ∈ feed ∧ P b := .rfl

theorem Ordered.holds_mem (h : Ordered accepts P value) {feed : List β} {r : β} (hr : holds accepts feed = some r) :
    r ∈ taken P feed := by
  induction feed using List.reverseRecOn generalizing r with
  | nil => cases hr
  | append_singleton feed b ih =>
    rw [holds_concat, take] at hr
    split at hr
    · next hb =>
      cases hr
      cases hs : holds accepts feed with
      | none => exact ⟨by simp, h.first.mp (hs ▸ hb)⟩
      | some a => exact ⟨by simp, (h.next.mp (hs ▸ hb)).2.1⟩
    · obtain ⟨hm, hp⟩ := ih hr
      exact ⟨List.mem_append_left _ hm, hp⟩

/-- Where anything may be taken, something is held. -/
theorem Ordered.holds_none (h : Ordered accepts P value) {feed : List β} :
    holds accepts feed = none ↔ ∀ b ∈ feed, ¬ P b := by
  induction feed using List.reverseRecOn with
  | nil => simp [holds]
  | append_singleton feed b ih =>
    rw [holds_concat]
    cases hs : holds accepts feed with
    | none =>
      have hnone := ih.mp hs
      simp only [List.mem_append, List.mem_singleton, or_imp, forall_and, forall_eq, take]
      by_cases hb : P b
      · simp [h.first.mpr hb, hb]
      · simp [h.first.not.mpr hb, hb]
        exact hnone
    | some a =>
      obtain ⟨hm, hp⟩ := h.holds_mem hs
      obtain ⟨r, hr, _⟩ := h.take_some (b := b) hp
      rw [hr]
      refine ⟨fun hn => ?_, fun hn => absurd hp (hn a (List.mem_append_left _ hm))⟩
      cases hn

/-- Nothing in the feed is worth more than what is held: an item was either
taken, or was not worth what was held then. -/
theorem Ordered.maximal (h : Ordered accepts P value) {feed : List β} {r : β} (hr : holds accepts feed = some r) :
    Maximal (· ∈ value '' taken P feed) (value r) := by
  refine ⟨⟨r, h.holds_mem hr, rfl⟩, fun v hv hle => ?_⟩
  obtain ⟨b, ⟨hb, hpb⟩, rfl⟩ := hv
  induction feed using List.reverseRecOn generalizing r with
  | nil => cases hr
  | append_singleton feed c ih =>
    have hpr : P r := (h.holds_mem hr).2
    rw [holds_concat] at hr
    have hlast : b = c → value b ≤ value r := by
      intro hbc
      subst hbc
      cases hs : holds accepts feed with
      | none =>
        rw [hs, take, if_pos (h.first.mpr hpb)] at hr
        cases hr
        exact le_refl _
      | some a =>
        rw [hs] at hr
        have hpa := (h.holds_mem hs).2
        obtain ⟨r', hr', _, har⟩ := h.take_some (b := b) hpa
        rw [hr'] at hr
        cases hr
        rw [take, if_pos (h.next.mpr ⟨hpa, hpb, har.trans hle⟩)] at hr'
        cases hr'
        exact le_refl _
    rcases List.mem_append.mp hb with hb | hb
    · cases hs : holds accepts feed with
      | none => exact absurd hpb (h.holds_none.mp hs b hb)
      | some a =>
        rw [hs] at hr
        obtain ⟨r', hr', _, har⟩ := h.take_some (b := c) (h.holds_mem hs).2
        rw [hr'] at hr
        cases hr
        exact (ih hs hb (har.trans hle)).trans har
    · exact hlast (List.mem_singleton.mp hb)

/-- Of items that can be compared, the greatest is held. -/
theorem Ordered.greatest (h : Ordered accepts P value) {feed : List β}
    (hchain : IsChain (· ≤ ·) (value '' taken P feed)) {r : β} (hr : holds accepts feed = some r) :
    IsGreatest (value '' taken P feed) (value r) := by
  have hmax := h.maximal hr
  exact ⟨hmax.1, hchain.directedOn.is_top_of_is_max hmax.1 fun v hv hle => hmax.2 hv hle⟩

/-! ## Many on one feed -/

section

variable {ι σ : Type} {step : ι → σ → β → σ} {s : ι → σ} {feed feed' : List β} {p : ι → β → Bool}

/-- Cells that are fed the same items, each with its own step. -/
def feedAll (step : ι → σ → β → σ) (s : ι → σ) (feed : List β) : ι → σ :=
  feed.foldl (fun s b i => step i (s i) b) s

theorem feedAll_apply {i : ι} : feedAll step s feed i = feed.foldl (step i) (s i) := by
  induction feed generalizing s with
  | nil => rfl
  | cons b feed ih => exact ih

/-- Items that leave a cell as it is may be left out. -/
theorem foldl_filter_of_ignored {step : σ → β → σ} {p : β → Bool} (h : ∀ s b, p b = false → step s b = s) {s : σ} :
    (feed.filter p).foldl step s = feed.foldl step s := by
  rw [List.foldl_filter]
  congr 1
  funext s b
  cases hp : p b with
  | true => rfl
  | false => exact (h s b hp).symm

theorem feedAll_filter (h : ∀ i s b, p i b = false → step i s b = s) {i : ι} :
    feedAll step s feed i = (feed.filter (p i)).foldl (step i) (s i) := by
  rw [feedAll_apply, foldl_filter_of_ignored (h i)]

/-- Where each cell takes note of its own items alone, it does not matter how
those of different cells are interleaved. -/
theorem feedAll_interleaved (h : ∀ i s b, p i b = false → step i s b = s)
    (hsame : ∀ i, feed.filter (p i) = feed'.filter (p i)) : feedAll step s feed = feedAll step s feed' := by
  funext i
  rw [feedAll_filter h, feedAll_filter h, hsame]

end

end Register
