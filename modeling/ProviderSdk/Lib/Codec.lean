/-
Decoders and encoders of messages, and what it means for them to agree.

A decoder `Returns` a value when it reads back what the encoder wrote for
it: exactly where a condition `P` on the value holds, and failing elsewhere.
It `Restores` messages when what it decodes encodes to the message again. It
`Respects` a relation on messages when related messages decode to one value,
and `Determines` it when only related ones do; it `Carries` it to a relation
on values when related messages decode to related ones. It `Yields` what
every value it produces has. Each of these passes from the items of a list
to the list.
-/
import ProviderSdk.Lib.Checks
import ProviderSdk.Lib.Collections

namespace Codec

open Checks

universe v
variable {ε : Type v} {W M : Type} {decode : W → Except ε M} {encode : M → W}

/-- What `encode` writes for `m` decodes to `m` where `P` holds, and to
nothing elsewhere. -/
def Returns (decode : W → Except ε M) (encode : M → W) (P : Prop) (m : M) : Prop :=
  ∀ m', decode (encode m) = .ok m' ↔ P ∧ m = m'

theorem Returns.ok {P : Prop} {m : M} (h : Returns decode encode P m) (hp : P) : decode (encode m) = .ok m :=
  (h m).mpr ⟨hp, rfl⟩

theorem Returns.congr {P Q : Prop} {m : M} (h : Returns decode encode P m) (hpq : P ↔ Q) :
    Returns decode encode Q m :=
  fun m' => (h m').trans (and_congr_left fun _ => hpq)

/-- A list is read back exactly where its items are. -/
theorem returns_list {P : M → Prop} {l : List M} (h : ∀ m ∈ l, Returns decode encode (P m) m) :
    Returns (List.mapM decode) (List.map encode) (∀ m ∈ l, P m) l := by
  intro l'
  rw [mapM_ok, List.forall₂_map_left_iff]
  induction l generalizing l' with
  | nil => simp [eq_comm]
  | cons m l ih =>
    simp only [List.forall₂_cons_left_iff, ih fun x hx => h x (by simp [hx]), h m (by simp) _, List.mem_cons,
      forall_eq_or_imp]
    refine ⟨fun hl => ?_, fun hl => ?_⟩
    · obtain ⟨_, _, ⟨hm, rfl⟩, ⟨hl, rfl⟩, he⟩ := hl
      exact ⟨⟨hm, hl⟩, he.symm⟩
    · obtain ⟨⟨hm, hl⟩, he⟩ := hl
      exact ⟨m, l, ⟨hm, rfl⟩, ⟨hl, rfl⟩, he.symm⟩

/-- Decoding loses nothing: what is decoded encodes to the message it came
from. -/
structure Restores (decode : W → Except ε M) (encode : M → W) : Prop where
  of_ok : ∀ {w m}, decode w = .ok m → encode m = w

theorem restores_list (h : Restores decode encode) : Restores (List.mapM decode) (List.map encode) where
  of_ok {l r} hd := by
    rw [mapM_ok] at hd
    induction hd with
    | nil => rfl
    | cons hw _ ih => rw [List.map_cons, h.of_ok hw, ih]

/-- Related messages decode to one value. -/
structure Respects (decode : W → Except ε M) (R : W → W → Prop) : Prop where
  ok : ∀ {w w' m}, R w w' → decode w = .ok m → decode w' = .ok m

theorem respects_list {R : W → W → Prop} (h : Respects decode R) :
    Respects (List.mapM decode) (List.Forall₂ R) where
  ok {l l' r} hr hd := by
    rw [mapM_ok] at hd ⊢
    induction hr generalizing r with
    | nil => exact hd
    | cons hw _ ih =>
      obtain ⟨m, ms, hm, hms, rfl⟩ := List.forall₂_cons_left_iff.mp hd
      exact .cons (h.ok hw hm) (ih hms)

/-- Messages that decode to one value are related. -/
structure Determines (decode : W → Except ε M) (R : W → W → Prop) : Prop where
  rel : ∀ {w w' m}, decode w = .ok m → decode w' = .ok m → R w w'

theorem determines_list {R : W → W → Prop} (h : Determines decode R) :
    Determines (List.mapM decode) (List.Forall₂ R) where
  rel {l l' r} hd hd' := by
    rw [mapM_ok] at hd hd'
    induction hd generalizing l' with
    | nil =>
      rw [List.forall₂_nil_right_iff.mp hd']
      exact .nil
    | cons hw _ ih =>
      obtain ⟨w', l', hw', hl', rfl⟩ := List.forall₂_cons_right_iff.mp hd'
      exact .cons (h.rel hw hw') (ih hl')

/-- Where both hold, the relation is when two messages decode alike. -/
theorem Respects.eq_iff {R : W → W → Prop} (hr : Respects decode R) (hd : Determines decode R) {w w' : W} {m m' : M}
    (h : decode w = .ok m) (h' : decode w' = .ok m') : m = m' ↔ R w w' := by
  refine ⟨fun he => ?_, fun hw => ?_⟩
  · subst he
    exact hd.rel h h'
  · have heq := hr.ok hw h
    rw [h'] at heq
    cases heq
    rfl

/-- What every decoded value has. -/
structure Yields (decode : W → Except ε M) (P : M → Prop) : Prop where
  of_ok : ∀ {w m}, decode w = .ok m → P m

theorem yields_list {P : M → Prop} (h : Yields decode P) : Yields (List.mapM decode) fun l => ∀ m ∈ l, P m where
  of_ok hd m hm := by
    obtain ⟨w, _, hw⟩ := mapM_ok_mem hd hm
    exact h.of_ok hw

/-- Related messages decode to related values. -/
structure Carries (decode : W → Except ε M) (R : W → W → Prop) (S : M → M → Prop) : Prop where
  ok : ∀ {w w' m}, R w w' → decode w = .ok m → ∃ m', decode w' = .ok m' ∧ S m m'

/-- The same items up to `R`, in another order. -/
def Shuffled {T : Type} (R : T → T → Prop) (l l' : List T) : Prop := ∃ mid, l.Perm mid ∧ List.Forall₂ R mid l'

theorem Respects.carries {R : W → W → Prop} (h : Respects decode R) : Carries decode R Eq where
  ok hr hd := ⟨_, h.ok hr hd, rfl⟩

theorem shuffled_eq {T : Type} {l l' : List T} (h : Shuffled Eq l l') : l.Perm l' := by
  obtain ⟨mid, hp, hf⟩ := h
  rw [List.forall₂_eq_eq_eq] at hf
  exact hf ▸ hp

theorem shuffled_of_forall₂ {T : Type} {R : T → T → Prop} {l l' : List T} (h : List.Forall₂ R l l') :
    Shuffled R l l' := ⟨l, .refl l, h⟩

theorem Shuffled.symm {T : Type} {R : T → T → Prop} (hr : ∀ {a b}, R a b → R b a) {l l' : List T}
    (h : Shuffled R l l') : Shuffled R l' l := by
  obtain ⟨mid, hp, hf⟩ := h
  obtain ⟨mid', hf', hp'⟩ := List.perm_comp_forall₂ hp hf
  exact ⟨mid', hp'.symm, (hf'.imp fun _ _ => hr).flip⟩

theorem rel_symm {T : Type} {R : T → T → Prop} (hr : ∀ {a b}, R a b → R b a) {o o' : Option T}
    (h : Option.Rel R o o') : Option.Rel R o' o := by
  cases h with
  | some h => exact .some (hr h)
  | none => exact .none

theorem carries_list {R : W → W → Prop} {S : M → M → Prop} (h : Carries decode R S) :
    Carries (List.mapM decode) (Shuffled R) (Shuffled S) where
  ok {l l' r} hr hd := by
    obtain ⟨mid, hp, hf⟩ := hr
    obtain ⟨rmid, hmid, hperm⟩ := mapM_perm hp hd
    suffices hlist : ∃ r', l'.mapM decode = .ok r' ∧ List.Forall₂ S rmid r' by
      obtain ⟨r', hr', hs⟩ := hlist
      exact ⟨r', hr', rmid, hperm, hs⟩
    rw [mapM_ok] at hmid
    clear hp hd hperm
    induction hf generalizing rmid with
    | nil =>
      cases hmid
      exact ⟨[], rfl, .nil⟩
    | cons hw _ ih =>
      obtain ⟨m, ms, hm, hms, rfl⟩ := List.forall₂_cons_left_iff.mp hmid
      obtain ⟨m', hm', hs⟩ := h.ok hw hm
      obtain ⟨r', hr', hss⟩ := ih ms hms
      refine ⟨m' :: r', ?_, .cons hs hss⟩
      rw [mapM_ok] at hr' ⊢
      exact .cons hm' hr'

/-- An optional part that is present keeps its relation. -/
theorem rel_some {R : W → W → Prop} {o o' : Option W} {w : W} (h : Option.Rel R o o') (ho : o = some w) :
    ∃ w', o' = some w' ∧ R w w' := by
  cases h with
  | some h =>
    cases ho
    exact ⟨_, rfl, h⟩
  | none => cases ho

/-- A message that is restored is determined. -/
theorem Restores.determines (h : Restores decode encode) : Determines decode Eq where
  rel hd hd' := (h.of_ok hd).symm.trans (h.of_ok hd')

/-- A part that is there is decoded from any part related to it. -/
theorem Respects.part {R : W → W → Prop} (h : Respects decode R) {o o' : Option W} {m : M} (hr : Option.Rel R o o')
    (hd : ∃ w, o = some w ∧ decode w = .ok m) : ∃ w', o' = some w' ∧ decode w' = .ok m := by
  obtain ⟨w, ho, hw⟩ := hd
  obtain ⟨w', ho', hww⟩ := rel_some hr ho
  exact ⟨w', ho', h.ok hww hw⟩

theorem Determines.part {R : W → W → Prop} (h : Determines decode R) {o o' : Option W} {m : M}
    (hd : ∃ w, o = some w ∧ decode w = .ok m) (hd' : ∃ w', o' = some w' ∧ decode w' = .ok m) : Option.Rel R o o' := by
  obtain ⟨w, rfl, hw⟩ := hd
  obtain ⟨w', rfl, hw'⟩ := hd'
  exact .some (h.rel hw hw')

/-- A restored part is itself. -/
theorem Restores.part (h : Restores decode encode) {o o' : Option W} {m : M}
    (hd : ∃ w, o = some w ∧ decode w = .ok m) (hd' : ∃ w', o' = some w' ∧ decode w' = .ok m) : o = o' := by
  obtain ⟨w, rfl, hw⟩ := hd
  obtain ⟨w', rfl, hw'⟩ := hd'
  rw [h.determines.rel hw hw']

/-! ## Sets -/

variable [LinearOrder M]

/-- The body of a loop that converts items and collects them, and fails on a
repeated one. -/
def insertNew (decode : W → Except ε M) (e : ε) (decoded : BTreeSet M) (w : W) : Except ε (BTreeSet M) := do
  let (decoded, fresh) := decoded.insert (← decode w)
  reject (¬ fresh) e
  pure decoded

/-- The loop collects the converted items, which are distinct. -/
theorem foldlM_insertNew {e : ε} {l : List W} {s : BTreeSet M} :
    l.foldlM (insertNew decode e) .new = .ok s ↔
      ∃ items, l.mapM decode = .ok items ∧ items.Nodup ∧ BTreeSet.collect items = s := by
  induction l using List.reverseRecOn generalizing s with
  | nil => simp [BTreeSet.collect]
  | append_singleton l w ih =>
    simp only [List.foldlM_append, List.foldlM_cons, List.foldlM_nil, bind_pure, bind_ok, ih, insertNew, reject_ok,
      not_not, BTreeSet.insert_fresh, exists_const, pure_ok, List.mapM_append, List.mapM_cons, List.mapM_nil]
    refine ⟨fun h => ?_, fun h => ?_⟩
    · obtain ⟨_, ⟨items, hl, hd, rfl⟩, m, hm, hnew, hs⟩ := h
      refine ⟨items ++ [m], ⟨items, hl, [m], ⟨m, hm, [], rfl, rfl⟩, rfl⟩, ?_, by rw [BTreeSet.collect_concat, hs]⟩
      rw [BTreeSet.mem_collect] at hnew
      rw [← List.concat_eq_append, List.nodup_concat]
      exact ⟨hnew, hd⟩
    · obtain ⟨_, ⟨items, hl, _, ⟨m, hm, _, rfl, rfl⟩, rfl⟩, hd, hs⟩ := h
      rw [← List.concat_eq_append, List.nodup_concat] at hd
      refine ⟨_, ⟨items, hl, hd.2, rfl⟩, m, hm, ?_, by rw [← BTreeSet.collect_concat, hs]⟩
      rw [BTreeSet.mem_collect]
      exact hd.1

/-- Reordered items are collected into the same set. -/
theorem respects_insertNew {e : ε} : Respects (List.foldlM (insertNew decode e) .new) List.Perm where
  ok hp h := by
    rw [foldlM_insertNew] at h ⊢
    obtain ⟨items, hl, hd, hs⟩ := h
    obtain ⟨items', hl', hp'⟩ := mapM_perm hp hl
    exact ⟨items', hl', hp'.nodup_iff.mp hd, by rw [← BTreeSet.collect_perm hp', hs]⟩

/-- Items that are collected into one set are the same but for their order. -/
theorem determines_insertNew {e : ε} (h : Restores decode encode) :
    Determines (List.foldlM (insertNew decode e) .new) List.Perm where
  rel {l l' s} hd hd' := by
    rw [foldlM_insertNew] at hd hd'
    obtain ⟨items, hl, hn, hs⟩ := hd
    obtain ⟨items', hl', hn', hs'⟩ := hd'
    have hp : items.Perm items' := by
      refine (List.perm_ext_iff_of_nodup hn hn').mpr fun m => ?_
      rw [← BTreeSet.mem_collect, hs, ← hs', BTreeSet.mem_collect]
    rw [← (restores_list h).of_ok hl, ← (restores_list h).of_ok hl']
    exact hp.map encode

/-- A set is read back from its members. -/
theorem returns_insertNew {e : ε} {s : BTreeSet M} (h : ∀ m ∈ s, Returns decode encode True m) :
    Returns (List.foldlM (insertNew decode e) .new) (fun s => s.toList.map encode) True s := by
  intro s'
  have hl := returns_list (P := fun _ => True) h
  rw [foldlM_insertNew, true_and]
  refine ⟨fun hs => ?_, fun hs => ⟨s.toList, hl.ok (by simp), s.nodup, ?_⟩⟩
  · obtain ⟨items, hi, _, hs⟩ := hs
    rw [← hs, ← ((hl items).mp hi).2, BTreeSet.collect_toList]
  · rw [BTreeSet.collect_toList, hs]

/-- As many members are collected as there were items. -/
theorem len_insertNew {e : ε} {l : List W} {s : BTreeSet M} (h : l.foldlM (insertNew decode e) .new = .ok s) :
    s.len = l.length := by
  obtain ⟨items, hl, hd, rfl⟩ := foldlM_insertNew.mp h
  rw [BTreeSet.len_collect.mpr hd, (mapM_ok.mp hl).length_eq]

end Codec
