/-
Codes whose words can be told apart from what follows them.

In a prefix code no word is the start of another. Where two texts begin with
words of one, the words are the same and so is the rest (`append_inj`), so a
text put together from such words can be read back in only one way. What is
put together is built up here: words up to a stop that starts none of them, a
list after its length, a word that may be left out, and a list with
separators.
-/
import Mathlib.Data.List.Basic

universe u v w

variable {α : Type u} {β : Type v} {σ : Type w}

/-- No word of the code is the start of another. -/
def PrefixCode (f : α → List σ) : Prop := ∀ a b, f a <+: f b → a = b

namespace PrefixCode

variable {f : α → List σ} {g : β → List σ}

/-- Where two texts begin with words, the words agree, and so does what
follows them. -/
theorem append_inj (hf : PrefixCode f) {a b : α} {s t : List σ} (h : f a ++ s = f b ++ t) : a = b ∧ s = t := by
  have hab : a = b := by
    have ha : f a <+: f b ++ t := h ▸ List.prefix_append (f a) s
    rcases List.prefix_or_prefix_of_prefix ha (List.prefix_append (f b) t) with hp | hp
    · exact hf a b hp
    · exact (hf b a hp).symm
  subst hab
  exact ⟨rfl, List.append_cancel_left h⟩

/-- It is enough that what follows two words tells them apart. -/
theorem of_append_inj (h : ∀ a b s t, f a ++ s = f b ++ t → a = b) : PrefixCode f := by
  intro a b hp
  obtain ⟨s, hs⟩ := hp
  exact h a b s [] (by rw [hs, List.append_nil])

theorem injective (hf : PrefixCode f) : Function.Injective f := fun a b h => hf a b (h ▸ List.prefix_rfl)

/-- Part of the words of a code. -/
theorem comp (hf : PrefixCode f) {h : β → α} (hh : Function.Injective h) : PrefixCode fun b => f (h b) :=
  fun _ _ hp => hh (hf _ _ hp)

/-- Words all opened in one way. -/
theorem opened (hf : PrefixCode f) (opening : List σ) : PrefixCode fun a => opening ++ f a :=
  fun a b h => hf a b ((List.prefix_append_right_inj opening).mp h)

/-- Any number of words, up to a stop that starts none of them. -/
theorem flatMap_stop (hf : PrefixCode f) {stop : σ} (hstop : ∀ a, ∃ c w, f a = c :: w ∧ c ≠ stop) :
    PrefixCode fun l : List α => l.flatMap f ++ [stop] := by
  refine of_append_inj fun l l' s t h => ?_
  simp only [List.append_assoc, List.singleton_append] at h
  induction l generalizing l' with
  | nil =>
    cases l' with
    | nil => rfl
    | cons b l' =>
      obtain ⟨c, w, hb, hc⟩ := hstop b
      rw [List.flatMap_nil, List.flatMap_cons, hb] at h
      exact absurd (List.cons.inj h).1.symm hc
  | cons a l ih =>
    cases l' with
    | nil =>
      obtain ⟨c, w, ha, hc⟩ := hstop a
      rw [List.flatMap_nil, List.flatMap_cons, ha] at h
      exact absurd (List.cons.inj h).1 hc
    | cons b l' =>
      rw [List.flatMap_cons, List.flatMap_cons, List.append_assoc, List.append_assoc] at h
      obtain ⟨hab, h⟩ := hf.append_inj h
      rw [hab, ih l' h]

/-- A list after its length. -/
theorem sized {len : Nat → List σ} (hlen : PrefixCode len) : PrefixCode fun l : List σ => len l.length ++ l := by
  refine of_append_inj fun l l' s t h => ?_
  rw [List.append_assoc, List.append_assoc] at h
  obtain ⟨hl, h⟩ := hlen.append_inj h
  exact (List.append_inj h hl).1

/-- A word that may be left out, where nothing that follows it starts like
one. -/
theorem optional (hf : PrefixCode f) {mark : σ} (hmark : ∀ a, (f a).head? = some mark) {o o' : Option α}
    {s t : List σ} (hs : s.head? ≠ some mark) (ht : t.head? ≠ some mark)
    (h : o.elim [] f ++ s = o'.elim [] f ++ t) : o = o' ∧ s = t := by
  have hhead : ∀ (a : α) (r : List σ), (f a ++ r).head? = some mark := fun a r => by
    rw [List.head?_append, hmark a, Option.some_or]
  cases o with
  | none =>
    cases o' with
    | none => exact ⟨rfl, h⟩
    | some b =>
      have h : s = f b ++ t := h
      exact absurd (h ▸ hhead b t) hs
  | some a =>
    cases o' with
    | none =>
      have h : f a ++ s = t := h
      exact absurd (h ▸ hhead a s) ht
    | some b =>
      obtain ⟨hab, hst⟩ := hf.append_inj h
      exact ⟨congrArg some hab, hst⟩

end PrefixCode

/-- A list with separators that none of its words contains is read back by
splitting at them. -/
theorem intercalate_inj [DecidableEq σ] {separator : σ} {ws ws' : List (List σ)} (hne : ws ≠ []) (hne' : ws' ≠ [])
    (hw : ∀ w ∈ ws, separator ∉ w) (hw' : ∀ w ∈ ws', separator ∉ w)
    (h : [separator].intercalate ws = [separator].intercalate ws') : ws = ws' := by
  rw [← List.splitOn_intercalate _ hw hne, h, List.splitOn_intercalate _ hw' hne']
