/-
Sets and maps, as `std::collections` has them.

A `BTreeSet` is the strictly increasing list of its members: iteration
order is part of the value, and two sets with the same members are equal
(`BTreeSet.ext`). `insert` also tells whether the member was new, which is
what callers test. A `BTreeMap` is only ever read by key, so it is the
function from keys to values; `insert` also returns the value it replaced.
A `HashSet` is only ever asked whether a member is new.
-/
import ProviderSdk.Lib.Checks
import Mathlib.Data.Finset.Basic
import Mathlib.Data.List.Induction
import Mathlib.Data.List.Sort
import Mathlib.Data.Prod.Lex

universe u v

/-- With distinct keys, the first item of a key is its only one. -/
theorem find_key {α : Type u} {κ : Type v} [DecidableEq κ] {key : α → κ} {l : List α} (hd : (l.map key).Nodup)
    {k : κ} {a : α} : l.find? (key · = k) = some a ↔ a ∈ l ∧ key a = k := by
  have hfound : ∀ b, l.find? (key · = k) = some b → b ∈ l ∧ key b = k := fun b hb => by
    have hk := List.find?_some hb
    exact ⟨List.mem_of_find?_eq_some hb, by simpa using hk⟩
  refine ⟨hfound a, fun h => ?_⟩
  obtain ⟨ha, hk⟩ := h
  cases hf : l.find? (key · = k) with
  | none => exact absurd (decide_eq_true hk) (List.find?_eq_none.mp hf a ha)
  | some b =>
    obtain ⟨hb, hkb⟩ := hfound b hf
    rw [List.inj_on_of_nodup_map hd hb ha (hkb.trans hk.symm)]

/-- The same, with every other item left out. -/
theorem filter_key {α : Type u} {κ : Type v} [DecidableEq κ] {key : α → κ} {l : List α} (hd : (l.map key).Nodup)
    {k : κ} {a : α} : l.filter (key · = k) = [a] ↔ a ∈ l ∧ key a = k := by
  refine ⟨fun h => ?_, fun h => ?_⟩
  · have ha : a ∈ l.filter (key · = k) := h ▸ List.mem_singleton_self a
    simpa [List.mem_filter] using ha
  · obtain ⟨ha, hk⟩ := h
    have hone : (l.filter (key · = k)).Perm [a] := by
      rw [List.perm_ext_iff_of_nodup ((List.Nodup.of_map key hd).filter _) (List.nodup_singleton a)]
      intro b
      rw [List.mem_filter, List.mem_singleton, decide_eq_true_eq]
      refine ⟨fun hb => List.inj_on_of_nodup_map hd hb.1 ha (hb.2.trans hk.symm), fun hb => ?_⟩
      rw [hb]
      exact ⟨ha, hk⟩
    exact List.perm_singleton.mp hone

/-- A set in increasing order. -/
structure BTreeSet (α : Type u) [LinearOrder α] where
  toList : List α
  sorted : toList.Pairwise (· < ·)
  deriving DecidableEq

namespace BTreeSet

variable {α : Type u} [LinearOrder α]

instance : Membership α (BTreeSet α) := ⟨fun s x => x ∈ s.toList⟩

theorem mem_iff {s : BTreeSet α} {x : α} : x ∈ s ↔ x ∈ s.toList := .rfl

instance (s : BTreeSet α) (x : α) : Decidable (x ∈ s) := inferInstanceAs (Decidable (x ∈ s.toList))

/-- The empty set. -/
def new : BTreeSet α := ⟨[], .nil⟩

/-- The number of members. -/
def len (s : BTreeSet α) : Nat := s.toList.length

/-- The set has no members. -/
def isEmpty (s : BTreeSet α) : Bool := s.toList.isEmpty

theorem sorted_orderedInsert {s : BTreeSet α} {x : α} (hx : x ∉ s.toList) :
    (s.toList.orderedInsert (· ≤ ·) x).Pairwise (· < ·) := by
  have hle : (s.toList.orderedInsert (· ≤ ·) x).Pairwise (· ≤ ·) :=
    List.Pairwise.orderedInsert x _ (s.sorted.imp le_of_lt)
  have hnd : (s.toList.orderedInsert (· ≤ ·) x).Nodup := by
    rw [(List.perm_orderedInsert _ x s.toList).nodup_iff, List.nodup_cons]
    exact ⟨hx, s.sorted.imp ne_of_lt⟩
  exact (hle.and hnd).imp fun h => lt_of_le_of_ne h.1 h.2

/-- The set with `x`, and whether `x` was not yet in it. -/
def insert (s : BTreeSet α) (x : α) : BTreeSet α × Bool :=
  if hx : x ∈ s.toList then (s, false)
  else (⟨s.toList.orderedInsert (· ≤ ·) x, sorted_orderedInsert hx⟩, true)

/-- The set of a list's items, inserted in order. -/
def collect (l : List α) : BTreeSet α := l.foldl (fun s x => (s.insert x).1) new

/-- A set is its members. -/
theorem ext {s t : BTreeSet α} (h : ∀ x, x ∈ s ↔ x ∈ t) : s = t := by
  have : s.toList = t.toList := s.sorted.eq_of_mem_iff t.sorted fun {x} => h x
  cases s; cases t; simp_all

theorem nodup (s : BTreeSet α) : s.toList.Nodup := s.sorted.imp ne_of_lt

@[simp] theorem not_mem_new {x : α} : x ∉ (new : BTreeSet α) := by simp [mem_iff, new]

@[simp] theorem mem_insert {s : BTreeSet α} {x y : α} : y ∈ (s.insert x).1 ↔ y = x ∨ y ∈ s := by
  unfold insert
  split
  · rename_i hx
    exact ⟨.inr, fun h => h.elim (fun he => he ▸ hx) id⟩
  · simp [mem_iff]

/-- `insert` answers `true` exactly for a new member. -/
@[simp] theorem insert_fresh {s : BTreeSet α} {x : α} : (s.insert x).2 = true ↔ x ∉ s := by
  unfold insert
  split <;> simp_all [mem_iff]

@[simp] theorem collect_nil : collect ([] : List α) = new := rfl

@[simp] theorem collect_concat (l : List α) (x : α) : collect (l ++ [x]) = ((collect l).insert x).1 := by
  simp [collect]

@[simp] theorem mem_collect {l : List α} {x : α} : x ∈ collect l ↔ x ∈ l := by
  induction l using List.reverseRecOn with
  | nil => simp
  | append_singleton l y ih => simp [ih, or_comm]

/-- Two lists collect to one set exactly when they have the same items. -/
theorem collect_eq_iff {l : List α} {s : BTreeSet α} : collect l = s ↔ ∀ x, x ∈ l ↔ x ∈ s :=
  ⟨fun h x => by rw [← h, mem_collect], fun h => ext fun x => by rw [mem_collect, h]⟩

@[simp] theorem collect_toList (s : BTreeSet α) : collect s.toList = s :=
  collect_eq_iff.mpr fun _ => mem_iff.symm

theorem collect_perm {l l' : List α} (h : l.Perm l') : collect l = collect l' :=
  collect_eq_iff.mpr fun x => by rw [mem_collect, h.mem_iff]

/-- The members of a duplicate-free list, in increasing order. -/
theorem collect_toList_perm {l : List α} (h : l.Nodup) : (collect l).toList.Perm l :=
  (List.perm_ext_iff_of_nodup (nodup _) h).mpr fun _ => mem_collect

@[simp] theorem isEmpty_collect {l : List α} : (collect l).isEmpty = true ↔ l = [] := by
  refine ⟨fun h => List.eq_nil_iff_forall_not_mem.mpr fun x hx => ?_, fun h => by rw [h]; rfl⟩
  have hm : x ∈ (collect l).toList := mem_collect.mpr hx
  rw [List.isEmpty_iff.mp h] at hm
  exact List.not_mem_nil hm

/-- A list collects to as many members as it has items exactly when its
items are distinct. -/
theorem len_collect {l : List α} : (collect l).len = l.length ↔ l.Nodup := by
  constructor
  · intro h
    have hsub : (collect l).toList.Subperm l :=
      (nodup _).subperm fun _ hx => mem_collect.mp hx
    exact ((hsub.perm_of_length_le (le_of_eq h.symm)).nodup_iff).mp (nodup _)
  · exact fun h => (collect_toList_perm h).length_eq

theorem len_le_of_subset {s : BTreeSet α} {l : List α} (h : ∀ x ∈ s, x ∈ l) : s.len ≤ l.length :=
  ((nodup s).subperm fun x hx => h x hx).length_le

/-- Every member of `s` is one of `t`. -/
def isSubset (s t : BTreeSet α) : Bool := s.toList.all fun x => x ∈ t

@[simp] theorem isSubset_iff {s t : BTreeSet α} : s.isSubset t = true ↔ ∀ x ∈ s, x ∈ t := by
  simp only [isSubset, List.all_eq_true, decide_eq_true_eq, mem_iff]

theorem not_isEmpty {s : BTreeSet α} : ¬ s.isEmpty = true ↔ ∃ x, x ∈ s := by
  rw [isEmpty, List.isEmpty_iff]
  exact ⟨List.exists_mem_of_ne_nil _, fun h => List.ne_nil_of_mem h.choose_spec⟩

end BTreeSet

/-- A map, read only by key. -/
def BTreeMap (κ : Type u) (ν : Type v) : Type (max u v) := κ → Option ν

namespace BTreeMap

variable {κ : Type u} {ν : Type v} [DecidableEq κ]

/-- The empty map. -/
def new : BTreeMap κ ν := fun _ => none

/-- The value at a key. -/
def get (m : BTreeMap κ ν) (k : κ) : Option ν := m k

/-- The map with `v` at `k`, and the value `v` replaced. -/
def insert (m : BTreeMap κ ν) (k : κ) (v : ν) : BTreeMap κ ν × Option ν :=
  (Function.update m k (some v), m k)

/-- The map of a list of entries, inserted in order: the last entry of a
key wins. -/
def collect (l : List (κ × ν)) : BTreeMap κ ν := l.foldl (fun m e => (m.insert e.1 e.2).1) new

omit [DecidableEq κ] in
@[simp] theorem get_new {k : κ} : (new : BTreeMap κ ν).get k = none := rfl

@[simp] theorem get_insert {m : BTreeMap κ ν} {k k' : κ} {v : ν} :
    (m.insert k v).1.get k' = if k' = k then some v else m.get k' :=
  Function.update_apply m k (some v) k'

@[simp] theorem insert_previous {m : BTreeMap κ ν} {k : κ} {v : ν} : (m.insert k v).2 = m.get k := rfl

@[simp] theorem collect_concat (l : List (κ × ν)) (e : κ × ν) :
    collect (l ++ [e]) = ((collect l).insert e.1 e.2).1 := by simp [collect]

/-- A key of no entry is absent. -/
theorem get_collect_eq_none {l : List (κ × ν)} {k : κ} : (collect l).get k = none ↔ k ∉ l.map (·.1) := by
  induction l using List.reverseRecOn with
  | nil => simp [collect]
  | append_singleton l e ih =>
    rw [collect_concat, get_insert]
    split <;> simp_all

/-- What a map holds is one of its entries. -/
theorem mem_of_get_collect {l : List (κ × ν)} {k : κ} {v : ν} (h : (collect l).get k = some v) : (k, v) ∈ l := by
  induction l using List.reverseRecOn with
  | nil => cases h
  | append_singleton l e ih =>
    rw [collect_concat, get_insert] at h
    split at h
    · rename_i hk
      obtain rfl : e.2 = v := by simpa using h
      simp [hk]
    · simp [ih h]

/-- With distinct keys, a map holds exactly its entries. -/
theorem get_collect {l : List (κ × ν)} (h : (l.map (·.1)).Nodup) {k : κ} {v : ν} :
    (collect l).get k = some v ↔ (k, v) ∈ l := by
  induction l using List.reverseRecOn with
  | nil => simp [collect]
  | append_singleton l e ih =>
    obtain ⟨k₀, v₀⟩ := e
    simp only [List.map_append, List.map_singleton, List.nodup_append, List.mem_map, List.mem_singleton,
      forall_eq] at h
    rw [collect_concat, get_insert]
    split
    · rename_i hk
      subst hk
      have hne : (k, v) ∉ l := fun hm => h.2.2 k ⟨(k, v), hm, rfl⟩ rfl
      simp [hne, eq_comm]
    · rename_i hk
      simp [ih h.1, hk]

/-- Every entry agrees with the one its key held before exactly when any two
entries of a key agree. -/
theorem each_agree {α : Type u} {key : α → κ} {value : α → ν} {l : List α} :
    Checks.Each (fun pre x => ∀ v, (collect (pre.map fun y => (key y, value y))).get (key x) = some v →
      v = value x) l ↔ ∀ x ∈ l, ∀ y ∈ l, key x = key y → value x = value y := by
  induction l using List.reverseRecOn with
  | nil => simp
  | append_singleton l x ih =>
    rw [Checks.each_concat, ih]
    refine ⟨fun h => ?_, fun h => ⟨fun y hy z hz => h y (by simp [hy]) z (by simp [hz]), fun v hv => ?_⟩⟩
    · obtain ⟨hl, hx⟩ := h
      have hlast : ∀ y ∈ l, key y = key x → value y = value x := by
        intro y hy hk
        have hget : (collect (l.map fun y => (key y, value y))).get (key x) ≠ none := by
          rw [Ne, get_collect_eq_none, not_not, ← hk, List.map_map]
          exact List.mem_map_of_mem (f := key) hy
        obtain ⟨v, hv⟩ := Option.ne_none_iff_exists'.mp hget
        obtain ⟨z, hz, he⟩ := List.mem_map.mp (mem_of_get_collect hv)
        obtain ⟨hkz, hvz⟩ := Prod.mk.inj he
        rw [hl y hy z hz (hk.trans hkz.symm), hvz, hx v hv]
      intro y hy z hz hk
      rcases List.mem_append.mp hy with hy' | hy' <;> rcases List.mem_append.mp hz with hz' | hz'
      · exact hl y hy' z hz' hk
      · rw [List.mem_singleton.mp hz'] at hk ⊢
        exact hlast y hy' hk
      · rw [List.mem_singleton.mp hy'] at hk ⊢
        exact (hlast z hz' hk.symm).symm
      · rw [List.mem_singleton.mp hy', List.mem_singleton.mp hz']
    · obtain ⟨y, hy, he⟩ := List.mem_map.mp (mem_of_get_collect hv)
      obtain ⟨hk, hvy⟩ := Prod.mk.inj he
      rw [← hvy, h y (by simp [hy]) x (by simp) hk]

end BTreeMap

/-- A set that is only asked for its members. -/
structure HashSet (α : Type u) where
  members : List α

namespace HashSet

variable {α : Type u}

instance : Membership α (HashSet α) := ⟨fun s x => x ∈ s.members⟩

/-- The empty set. -/
def new : HashSet α := ⟨[]⟩

variable [DecidableEq α]

instance (s : HashSet α) (x : α) : Decidable (x ∈ s) := inferInstanceAs (Decidable (x ∈ s.members))

/-- The set with `x`, and whether `x` was not yet in it. -/
def insert (s : HashSet α) (x : α) : HashSet α × Bool :=
  if x ∈ s.members then (s, false) else (⟨x :: s.members⟩, true)

/-- The set of a list's items, inserted in order. -/
def collect (l : List α) : HashSet α := l.foldl (fun s x => (s.insert x).1) new

@[simp] theorem mem_insert {s : HashSet α} {x y : α} : y ∈ (s.insert x).1 ↔ y = x ∨ y ∈ s := by
  unfold insert
  split
  · rename_i hx
    exact ⟨.inr, fun h => h.elim (fun he => he ▸ hx) id⟩
  · exact List.mem_cons

/-- `insert` answers `true` exactly for a new member. -/
@[simp] theorem insert_fresh {s : HashSet α} {x : α} : (s.insert x).2 = true ↔ x ∉ s := by
  unfold insert
  split
  · rename_i hx
    simp only [Bool.false_eq_true, false_iff, not_not]
    exact hx
  · rename_i hx
    simp only [true_iff]
    exact hx

@[simp] theorem collect_concat (l : List α) (x : α) : collect (l ++ [x]) = ((collect l).insert x).1 := by
  simp [collect]

@[simp] theorem mem_collect {l : List α} {x : α} : x ∈ collect l ↔ x ∈ l := by
  induction l using List.reverseRecOn with
  | nil => exact .rfl
  | append_singleton l y ih => simp [ih, or_comm]

/-! A loop over items whose keys may be absent collects the keys there are. -/

theorem collect_filterMap_concat {β : Type u} {key : β → Option α} (pre : List β) (b : β) :
    collect ((pre ++ [b]).filterMap key) =
      (key b).elim (collect (pre.filterMap key)) fun k => ((collect (pre.filterMap key)).insert k).1 := by
  rw [List.filterMap_append]
  cases hk : key b with
  | none => simp [hk]
  | some k => simp [hk]

omit [DecidableEq α] in
/-- A key there is, is new to the keys so far exactly when no item has it. -/
theorem key_fresh {β : Type u} {key : β → Option α} {pre : List β} {b : β} (hb : ∃ k, key b = some k) :
    (∃ k, key b = some k ∧ k ∉ pre.filterMap key) ↔ key b ∉ pre.map key := by
  obtain ⟨k, hk⟩ := hb
  rw [hk]
  simp [List.mem_filterMap, List.mem_map]

end HashSet
