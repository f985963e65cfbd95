/-
Checks that stop at the first failure, and what it means for one to succeed.

Everything here is about `Except`: a guard (`reject`), a required part
(`okOr`), a loop over a list with an accumulator (`foldlM`), a conversion
item by item (`mapM`). A loop body is `Guarded` when it fails exactly where
a guard does and otherwise makes a fixed update; a loop of it succeeds
exactly when the guard holds at every item, of the accumulator the items
before it leave (`Guarded.foldlM_ok`). `Each` is that for-all, over the
splits of the list, and its lemmas turn the guards loops are made of (a
fresh key, a running budget) into statements that forget the order. Where
checks stand between reads and writes of a state, they leave it alone.
-/
import Mathlib.Data.List.Induction
import Mathlib.Data.List.Nodup
import Mathlib.Data.List.Perm.Basic
import Mathlib.Algebra.BigOperators.Group.List.Basic
import Mathlib.Algebra.GroupWithZero.Nat

namespace Checks

universe u v
variable {ε ε' : Type v} {α β γ : Type u}

theorem bind_ok {x : Except ε α} {f : α → Except ε β} {b : β} :
    (x >>= f) = .ok b ↔ ∃ a, x = .ok a ∧ f a = .ok b := by
  cases x <;> simp [bind, Except.bind]

theorem ok_bind {a : α} {f : α → Except ε β} : (Except.ok a >>= f) = f a := rfl

theorem pure_ok {a b : α} : (pure a : Except ε α) = .ok b ↔ a = b := by
  simp [pure, Except.pure]

theorem map_ok {x : Except ε α} {f : α → β} {b : β} :
    (f <$> x) = .ok b ↔ ∃ a, x = .ok a ∧ f a = b := by
  cases x <;> simp [Functor.map, Except.map]

/-- A call whose result is dropped. -/
theorem discard_ok {x : Except ε α} {u : PUnit} : discard x = .ok u ↔ ∃ a, x = .ok a := by
  cases x <;> simp [discard, Functor.mapConst, Except.map]

theorem throw_ok {e : ε} {a : α} : (throw e : Except ε α) = .ok a ↔ False := by
  simp [throw, throwThe, MonadExceptOf.throw]

theorem mapError_ok {x : Except ε α} {f : ε → ε'} {a : α} :
    x.mapError f = .ok a ↔ x = .ok a := by
  cases x <;> simp [Except.mapError]

/-- Fail with `e` where `c` holds. -/
def reject (c : Prop) [Decidable c] (e : ε) : Except ε Unit :=
  if c then .error e else .ok ()

theorem reject_ok {c : Prop} [Decidable c] {e : ε} {u : Unit} : reject c e = .ok u ↔ ¬ c := by
  unfold reject
  split <;> simp_all

/-- The value present, or else `e`. -/
def okOr (o : Option α) (e : ε) : Except ε α :=
  match o with
  | some a => .ok a
  | none => .error e

theorem okOr_ok {o : Option α} {e : ε} {a : α} : okOr o e = .ok a ↔ o = some a := by
  cases o <;> simp [okOr]

/-- A check of a value, where there is one. -/
def ifSome (o : Option α) (check : α → Except ε PUnit) : Except ε PUnit :=
  match o with
  | some a => check a
  | none => pure ⟨⟩

theorem ifSome_ok {o : Option α} {check : α → Except ε PUnit} {u : PUnit} :
    ifSome o check = .ok u ↔ ∀ a, o = some a → check a = .ok u := by
  cases o with
  | none => simp [ifSome, pure_ok]
  | some a => simp [ifSome]

theorem ite_ok {c : Prop} [Decidable c] {x y : Except ε α} {a : α} :
    (if c then x else y) = .ok a ↔ if c then x = .ok a else y = .ok a := by
  split <;> rfl

theorem isOk_ok {a : α} : (Except.ok a : Except ε α).isOk = true := rfl

theorem isOk_error {e : ε} : (Except.error e : Except ε α).isOk = false := rfl

theorem isOk_iff {x : Except ε α} : x.isOk = true ↔ ∃ a, x = .ok a := by
  cases x <;> simp [isOk_ok, isOk_error]

theorem exists_unit {p : PUnit.{u + 1} → Prop} : (∃ u, p u) ↔ p ⟨⟩ :=
  ⟨fun ⟨_, h⟩ => h, fun h => ⟨_, h⟩⟩

/-- How a call fails: with an error, or by panicking. -/
inductive Fault (ε : Type v) where
  | error (e : ε)
  | panic

/-- A call that does not panic, among calls that may. -/
def fallible (x : Except ε α) : Except (Fault ε) α := x.mapError .error

theorem fallible_ok {x : Except ε α} {a : α} : fallible x = .ok a ↔ x = .ok a := mapError_ok

attribute [simp] isOk_ok isOk_error exists_unit fallible_ok bind_ok pure_ok map_ok throw_ok mapError_ok reject_ok
  okOr_ok

/-! ## A for-all over the splits of a list -/

/-- `P` holds at every item of `l`, given the items before it. -/
def Each (P : List α → α → Prop) (l : List α) : Prop :=
  ∀ pre x post, l = pre ++ x :: post → P pre x

variable {P Q : List α → α → Prop} {l : List α}

@[simp] theorem each_nil : Each P [] := by simp [Each]

@[simp] theorem each_concat {x : α} : Each P (l ++ [x]) ↔ Each P l ∧ P l x := by
  refine ⟨fun h => ⟨fun pre y post hl => h pre y (post ++ [x]) (by simp [hl]), h l x [] rfl⟩, ?_⟩
  intro h pre y post he
  obtain ⟨hl, hx⟩ := h
  -- the last item of the split is either `y` itself or the last of `post`
  rcases List.eq_nil_or_concat post with rfl | ⟨post, z, rfl⟩
  · obtain ⟨rfl, hy⟩ := List.append_inj' he rfl
    obtain rfl : x = y := by simpa using hy
    exact hx
  · have he' : l ++ [x] = (pre ++ y :: post) ++ [z] := by simpa using he
    exact hl pre y post (List.append_inj' he' rfl).1

theorem each_and : Each (fun pre x => P pre x ∧ Q pre x) l ↔ Each P l ∧ Each Q l :=
  ⟨fun h => ⟨fun pre x post he => (h pre x post he).1, fun pre x post he => (h pre x post he).2⟩,
    fun h pre x post he => ⟨h.1 pre x post he, h.2 pre x post he⟩⟩

/-- A guard that does not look back is a guard on the members. -/
theorem each_forall {p : α → Prop} : Each (fun _ x => p x) l ↔ ∀ x ∈ l, p x := by
  induction l using List.reverseRecOn with
  | nil => simp
  | append_singleton l x ih => simp [ih, or_imp, forall_and]

/-- Every key is new when it is reached exactly when all are distinct. -/
theorem each_fresh {key : α → β} : Each (fun pre x => key x ∉ pre.map key) l ↔ (l.map key).Nodup := by
  induction l using List.reverseRecOn with
  | nil => simp
  | append_singleton l x ih =>
    rw [each_concat, ih, List.map_append, List.map_singleton, List.nodup_append]
    simp only [List.nodup_singleton, true_and, List.mem_singleton, forall_eq, and_congr_right_iff]
    exact fun _ => ⟨fun hx a ha he => hx (he ▸ ha), fun h ha => h _ ha rfl⟩

/-- A budget is never overrun on the way exactly when the total fits. -/
theorem each_budget {size : α → Nat} {limit : Nat} :
    Each (fun pre x => (pre.map size).sum + size x ≤ limit) l ↔ (l.map size).sum ≤ limit := by
  induction l using List.reverseRecOn with
  | nil => simp
  | append_singleton l x ih =>
    rw [each_concat, ih, List.map_append, List.map_singleton, List.sum_append, List.sum_singleton]
    exact ⟨fun h => h.2, fun h => ⟨by omega, h⟩⟩

/-- The same, for a budget that counts down and stops at zero. -/
theorem each_countdown {size : α → Nat} {limit : Nat} :
    Each (fun pre x => size x ≤ limit - (pre.map size).sum) l ↔ (l.map size).sum ≤ limit := by
  induction l using List.reverseRecOn with
  | nil => simp
  | append_singleton l x ih =>
    rw [each_concat, ih, List.map_append, List.map_singleton, List.sum_append, List.sum_singleton]
    omega

/-! ## Loops -/

/-- A loop body that fails exactly where `guard` does, and otherwise makes
the update `next`. -/
structure Guarded (step : β → α → Except ε β) (guard : β → α → Prop) (next : β → α → β) : Prop where
  ok_iff : ∀ {b x b'}, step b x = .ok b' ↔ guard b x ∧ next b x = b'

/-- A loop of a guarded body succeeds exactly when its guard holds all
along, and then returns the accumulated updates. -/
theorem Guarded.foldlM_ok {step : β → α → Except ε β} {guard : β → α → Prop} {next : β → α → β}
    (h : Guarded step guard next) {b r : β} :
    l.foldlM step b = .ok r ↔ Each (fun pre x => guard (pre.foldl next b) x) l ∧ l.foldl next b = r := by
  induction l using List.reverseRecOn generalizing r with
  | nil => simp
  | append_singleton l x ih =>
    simp only [List.foldlM_append, List.foldlM_cons, List.foldlM_nil, bind_pure, bind_ok, ih, h.ok_iff,
      each_concat, List.foldl_append, List.foldl_cons, List.foldl_nil]
    refine ⟨fun hl => ?_, fun hl => ?_⟩
    · obtain ⟨a, ⟨he, ha⟩, hg, hr⟩ := hl
      subst ha
      exact ⟨⟨he, hg⟩, hr⟩
    · obtain ⟨⟨he, hg⟩, hr⟩ := hl
      exact ⟨_, ⟨he, rfl⟩, hg, hr⟩

/-- The same, where the accumulator is a function `after` of the items
gone by. -/
theorem Guarded.foldlM_after {step : β → α → Except ε β} {guard : β → α → Prop} {next : β → α → β}
    (h : Guarded step guard next) {b r : β} (after : List α → β) (h₀ : after [] = b)
    (h₁ : ∀ pre x, after (pre ++ [x]) = next (after pre) x) :
    l.foldlM step b = .ok r ↔ Each (fun pre x => guard (after pre) x) l ∧ after l = r := by
  have hf : ∀ l : List α, l.foldl next b = after l := fun l => by
    induction l using List.reverseRecOn with
    | nil => exact h₀.symm
    | append_singleton l x ih => rw [List.foldl_concat, ih, h₁]
  rw [h.foldlM_ok, hf l]
  simp only [hf]

/-- A loop whose body accepts no more than another accepts no more. -/
theorem foldlM_ok_mono {f : β → α → Except ε β} {g : β → α → Except ε' β}
    (h : ∀ b x r, f b x = .ok r → g b x = .ok r) {b r : β} (hl : l.foldlM f b = .ok r) :
    l.foldlM g b = .ok r := by
  induction l generalizing b with
  | nil => exact pure_ok.mpr (pure_ok.mp hl)
  | cons x l ih =>
    rw [List.foldlM_cons, bind_ok] at hl
    obtain ⟨b', hb', hr⟩ := hl
    rw [List.foldlM_cons, bind_ok]
    exact ⟨b', h b x b' hb', ih hr⟩

/-- A loop with no accumulator succeeds exactly when its body does at
every item. -/
@[simp] theorem forM_ok {f : α → Except ε PUnit} {u : PUnit} :
    l.forM f = .ok u ↔ ∀ x ∈ l, f x = .ok ⟨⟩ := by
  rw [List.forM_eq_forM]
  induction l with
  | nil => simp
  | cons x l ih =>
    simp only [List.forM_cons, bind_ok, List.mem_cons, forall_eq_or_imp, ← ih]
    refine ⟨fun h => ?_, fun h => ?_⟩
    · obtain ⟨_, h⟩ := h
      exact h
    · exact ⟨⟨⟩, h⟩

/-! ## How a call fails -/

/-- A call that fails, if at all, with an error in `P`. -/
def FailsIn (P : ε → Prop) (x : Except ε α) : Prop := ∀ e, x = .error e → P e

section

variable {p : ε → Prop}

theorem FailsIn.ok {a : α} : FailsIn p (.ok a) := fun _ h => nomatch h

theorem FailsIn.pure {a : α} : FailsIn p (Pure.pure a) := .ok

theorem FailsIn.throw {e : ε} (h : p e) : FailsIn p (throw e : Except ε α) := fun e' he => by
  cases he
  exact h

theorem FailsIn.reject {c : Prop} [Decidable c] {e : ε} (h : c → p e) : FailsIn p (reject c e) := by
  intro e' he
  unfold Checks.reject at he
  split at he
  · rename_i hc
    cases he
    exact h hc
  · cases he

theorem FailsIn.okOr {o : Option α} {e : ε} (h : o = none → p e) : FailsIn p (okOr o e) := by
  intro e' he
  cases o with
  | none =>
    cases he
    exact h rfl
  | some a => cases he

theorem FailsIn.bind {x : Except ε α} {f : α → Except ε β} (hx : FailsIn p x)
    (hf : ∀ a, x = .ok a → FailsIn p (f a)) : FailsIn p (x >>= f) := by
  cases x with
  | error e =>
    intro e' he
    cases he
    exact hx e rfl
  | ok a => exact hf a rfl

/-- A loop with no accumulator fails as its body does at some item. -/
theorem FailsIn.forM {f : α → Except ε PUnit} (h : ∀ x ∈ l, FailsIn p (f x)) : FailsIn p (l.forM f) := by
  rw [List.forM_eq_forM]
  induction l with
  | nil => exact .pure
  | cons x l ih =>
    rw [List.forM_cons]
    exact .bind (h x (by simp)) fun _ _ => ih fun y hy => h y (by simp [hy])

/-- A loop fails as its body does at some item. -/
theorem FailsIn.foldlM {f : β → α → Except ε β} (h : ∀ b, ∀ x ∈ l, FailsIn p (f b x)) {b : β} :
    FailsIn p (l.foldlM f b) := by
  induction l generalizing b with
  | nil => exact .pure
  | cons x l ih =>
    rw [List.foldlM_cons]
    exact .bind (h b x (by simp)) fun _ _ => ih fun b y hy => h b y (by simp [hy])

theorem FailsIn.discard {x : Except ε α} (h : FailsIn p x) : FailsIn p (discard x) := by
  intro e he
  cases x with
  | error e' =>
    cases he
    exact h e rfl
  | ok a => cases he

theorem FailsIn.mapError {x : Except ε α} {f : ε → ε'} {p : ε' → Prop} (h : FailsIn (fun e => p (f e)) x) :
    FailsIn p (x.mapError f) := by
  intro e' he
  cases x with
  | error e =>
    cases he
    exact h e rfl
  | ok a => cases he

/-- A call that cannot panic does not. -/
theorem FailsIn.fallible {x : Except ε α} : FailsIn (· ≠ .panic) (fallible x) := .mapError fun _ _ => nofun

/-- What fails otherwise than by panicking does not panic. -/
theorem FailsIn.noPanic {x : Except (Fault ε) α} (h : FailsIn (· ≠ .panic) x) : x ≠ .error .panic :=
  fun hx => h _ hx rfl

/-- Calls that succeed together, and fail with one error if at all, have one
result. -/
theorem FailsIn.eq {x y : Except ε PUnit} {e : ε} (hx : FailsIn (· = e) x) (hy : FailsIn (· = e) y)
    (h : x = .ok ⟨⟩ ↔ y = .ok ⟨⟩) : x = y := by
  cases x with
  | ok u => exact (h.mp rfl).symm
  | error e₁ =>
    cases y with
    | ok u => cases h.mpr rfl
    | error e₂ => rw [hx e₁ rfl, hy e₂ rfl]

end

/-! ## Calls that cannot panic, among calls that may -/

theorem fallible_bind {x : Except ε α} {f : α → Except ε β} :
    fallible (x >>= f) = fallible x >>= fun a => fallible (f a) := by
  cases x <;> rfl

theorem fallible_pure {a : α} : fallible (pure a : Except ε α) = pure a := rfl

theorem fallible_reject {c : Prop} [Decidable c] {e : ε} : fallible (reject c e) = reject c (.error e) := by
  unfold reject
  split <;> rfl

theorem fallible_okOr {o : Option α} {e : ε} : fallible (okOr o e) = okOr o (.error e) := by
  cases o <;> rfl

theorem fallible_discard {x : Except ε α} : fallible (discard x) = discard (fallible x) := by
  cases x <;> rfl

/-- A loop that could panic runs as one that cannot, where its body does. -/
theorem foldlM_fallible {f : β → α → Except ε β} {g : β → α → Except (Fault ε) β}
    (h : ∀ b, ∀ x ∈ l, g b x = fallible (f b x)) {b : β} : l.foldlM g b = fallible (l.foldlM f b) := by
  induction l generalizing b with
  | nil => rfl
  | cons x l ih =>
    rw [List.foldlM_cons, List.foldlM_cons, fallible_bind, h b x (by simp)]
    exact congrArg _ (funext fun b' => ih fun b y hy => h b y (by simp [hy]))

/-! ## Conversions item by item -/

/-- A conversion of a list succeeds exactly when it converts each item. -/
theorem mapM_ok {f : α → Except ε β} {r : List β} :
    l.mapM f = .ok r ↔ List.Forall₂ (fun a b => f a = .ok b) l r := by
  induction l generalizing r with
  | nil =>
    rw [List.mapM_nil, pure_ok, List.forall₂_nil_left_iff]
    exact eq_comm
  | cons a l ih =>
    simp only [List.mapM_cons, bind_ok, pure_ok, List.forall₂_cons_left_iff, ih]
    refine ⟨fun h => ?_, fun h => ?_⟩
    · obtain ⟨b, hb, bs, hbs, he⟩ := h
      exact ⟨b, bs, hb, hbs, he.symm⟩
    · obtain ⟨b, bs, hb, hbs, he⟩ := h
      exact ⟨b, hb, bs, hbs, he.symm⟩

/-- In lists related item by item, each item on the right has one on the
left. -/
theorem forall₂_mem_right {R : α → β → Prop} {r : List β} (h : List.Forall₂ R l r) {b : β} (hb : b ∈ r) :
    ∃ a ∈ l, R a b := by
  induction h with
  | nil => simp at hb
  | @cons a b' l r hab hlr ih =>
    rcases List.mem_cons.mp hb with rfl | hb
    · exact ⟨a, by simp, hab⟩
    · obtain ⟨a', ha', h'⟩ := ih hb
      exact ⟨a', by simp [ha'], h'⟩

/-- The members a conversion accepts have each been converted. -/
theorem mapM_ok_mem {f : α → Except ε β} {r : List β} (h : l.mapM f = .ok r) {b : β} (hb : b ∈ r) :
    ∃ a ∈ l, f a = .ok b := forall₂_mem_right (mapM_ok.mp h) hb

/-- Converting a reordered list gives the reordered result. -/
theorem mapM_perm {f : α → Except ε β} {l' : List α} {r : List β} (hp : l.Perm l')
    (h : l.mapM f = .ok r) : ∃ r', l'.mapM f = .ok r' ∧ r.Perm r' := by
  obtain ⟨r', hr', hp'⟩ := List.perm_comp_forall₂ hp.symm (mapM_ok.mp h)
  exact ⟨r', mapM_ok.mpr hr', hp'.symm⟩

/-! ## Checks on the way through a state -/

section

universe w
variable {σ ε α β : Type w} {s : σ}

variable {x : ExceptT ε (StateM σ) α} {f : α → ExceptT ε (StateM σ) β} {after : σ}

theorem run_bind_ok {a : α} (h : x.run.run s = (.ok a, after)) : (x >>= f).run.run s = (f a).run.run after := by
  rw [ExceptT.run_bind, StateT.run_bind, h]
  rfl

/-- An error leaves the state it was met in. -/
theorem run_bind_error {e : ε} (h : x.run.run s = (.error e, after)) :
    (x >>= f).run.run s = (.error e, after) := by
  rw [ExceptT.run_bind, StateT.run_bind, h]
  rfl

theorem ofExcept_bind {x : Except ε α} {f : α → Except ε β} :
    (ofExcept (x >>= f) : ExceptT ε (StateM σ) β) = ofExcept x >>= fun a => ofExcept (f a) := by
  cases x <;> rfl

theorem ofExcept_pure {a : α} : (ofExcept (pure a : Except ε α) : ExceptT ε (StateM σ) α) = pure a := rfl

/-- A check reads and writes no state. -/
theorem run_ofExcept {x : Except ε α} : (ofExcept x : ExceptT ε (StateM σ) α).run.run s = (x, s) := by
  cases x <;> rfl

end

end Checks
