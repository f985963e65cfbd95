/-
Readers of bytes that leave the rest of a text, and the numbers they read.

A reader that fails leaves the text as it was, so readers can be tried in
turn. A number is read digit by digit, with a limit on its value or on its
digits; what is printed in a radix is read back (`readNumber_numeral`), and
nothing is read from fewer digits than it is printed with
(`readNumber_takes`).
-/
import Mathlib.Algebra.Order.Group.Nat
import Mathlib.Algebra.Order.Ring.Nat
import Mathlib.Data.Nat.Basic

namespace Numerals

abbrev Reader := StateT (List UInt8) Option

variable {α β : Type} {text rest : List UInt8} {radix n : Nat}

theorem bind_some {x : Reader α} {f : α → Reader β} {r : β × List UInt8} :
    (x >>= f) text = some r ↔ ∃ a rest, x text = some (a, rest) ∧ f a rest = some r := by
  show (x text).bind (fun p => f p.1 p.2) = some r ↔ _
  rw [Option.bind_eq_some_iff, Prod.exists]

theorem pure_some {a : α} {r : α × List UInt8} : (pure a : Reader α) text = some r ↔ r = (a, text) := by
  show some (a, text) = some r ↔ _
  rw [Option.some.injEq, eq_comm]

/-- `read_given_char`. -/
def readGivenChar (target : UInt8) : Reader Unit
  | c :: rest => if c = target then some ((), rest) else none
  | [] => none

theorem readGivenChar_some {target : UInt8} {r : Unit × List UInt8} :
    readGivenChar target text = some r ↔ text = target :: r.2 := by
  obtain ⟨u, rest⟩ := r
  cases text with
  | nil => simp [readGivenChar]
  | cons c text => simp [readGivenChar]

/-- `read_separator`: the separator stands before every part but the first. -/
def readSeparator (sep : UInt8) (index : Nat) (inner : Reader α) : Reader α := do
  if index > 0 then readGivenChar sep
  inner

/-! ## Numbers -/

/-- The value of an ASCII letter or digit. -/
def digitValue (b : UInt8) : Nat :=
  if 0x30 ≤ b ∧ b ≤ 0x39 then b.toNat - 0x30
  else if 0x61 ≤ b ∧ b ≤ 0x7A then b.toNat - 0x61 + 10
  else if 0x41 ≤ b ∧ b ≤ 0x5A then b.toNat - 0x41 + 10
  else 36

/-- `char::to_digit`, for a radix of at most 36. -/
def toDigit (radix : Nat) (b : UInt8) : Option Nat := if digitValue b < radix then some (digitValue b) else none

/-- The loop of `read_number`: the value and the count of the digits. It
stops early on too many digits or, where their number is not limited, on
overflow. -/
def readDigits (radix limit : Nat) (maxDigits : Option Nat) :
    (result count : Nat) → List UInt8 → Option (Nat × Nat × List UInt8)
  | result, count, b :: text =>
    match toDigit radix b with
    | some digit =>
      match maxDigits with
      | some max =>
        if count + 1 > max then none else readDigits radix limit maxDigits (result * radix + digit) (count + 1) text
      | none =>
        if result * radix + digit ≥ limit then none
        else readDigits radix limit maxDigits (result * radix + digit) (count + 1) text
    | none => some (result, count, b :: text)
  | result, count, [] => some (result, count, [])

/-- `read_number`, of a type with `limit` values. -/
def readNumber (radix limit : Nat) (maxDigits : Option Nat) (allowZeroPrefix : Bool) : Reader Nat := fun text => do
  let hasLeadingZero := text.head? = some 0x30
  let (result, count, rest) ← readDigits radix limit maxDigits 0 0 text
  if count = 0 then none
  else if !allowZeroPrefix ∧ hasLeadingZero ∧ count > 1 then none
  else if result < limit then some (result, rest)
  else none

/-- The digits a number is printed with. -/
def numeral (radix n : Nat) : List UInt8 := (Nat.toDigits radix n).map fun c => UInt8.ofNat c.toNat

theorem length_numeral_pos : 0 < (numeral radix n).length := by
  rw [numeral, List.length_map]
  exact Nat.length_toDigits_pos

theorem length_numeral_le {k : Nat} (hradix : 1 < radix) (hk : 0 < k) :
    (numeral radix n).length ≤ k ↔ n < radix ^ k := by
  rw [numeral, List.length_map, Nat.length_toDigits_le_iff hradix hk]

theorem toDigit_digitChar {d : Nat} (hradix : radix ≤ 16) (hd : d < radix) :
    toDigit radix (UInt8.ofNat d.digitChar.toNat) = some d := by
  have hvalue : ∀ d < 16, digitValue (UInt8.ofNat d.digitChar.toNat) = d := by decide
  rw [toDigit, hvalue d (by omega), if_pos hd]

theorem numeral_step (hradix : 1 < radix) (h : radix ≤ n) :
    numeral radix n = numeral radix (n / radix) ++ [UInt8.ofNat (n % radix).digitChar.toNat] := by
  rw [numeral, Nat.toDigits_of_base_le hradix h, List.map_append]
  rfl

/-- Only zero is printed with a leading zero. -/
theorem head_numeral (hradix : 1 < radix) (hle : radix ≤ 16) (hn : 0 < n) : (numeral radix n).head? ≠ some 0x30 := by
  induction n using Nat.strong_induction_on with
  | h n ih =>
    by_cases hlt : n < radix
    · have hzero : ∀ d < 16, UInt8.ofNat d.digitChar.toNat = 0x30 → d = 0 := by decide
      rw [numeral, Nat.toDigits_of_lt_base hlt]
      intro h
      have h := hzero n (by omega) (by simpa using h)
      omega
    · have hdiv : 0 < n / radix := Nat.div_pos (by omega) (by omega)
      have hhead := ih _ (Nat.div_lt_self (by omega) hradix) hdiv
      have hne : numeral radix (n / radix) ≠ [] := List.length_pos_iff.mp length_numeral_pos
      obtain ⟨b, bs, hb⟩ := List.exists_cons_of_ne_nil hne
      rw [numeral_step hradix (by omega), hb]
      rw [hb] at hhead
      exact hhead

/-! ## What is read back -/

theorem readDigits_stop {limit result count : Nat} {maxDigits : Option Nat}
    (hrest : ∀ b ∈ rest.head?, toDigit radix b = none) :
    readDigits radix limit maxDigits result count rest = some (result, count, rest) := by
  cases rest with
  | nil => rfl
  | cons b rest => rw [readDigits, hrest b rfl]

/-- The loop reads the digits a number is printed with. -/
theorem readDigits_numeral {limit : Nat} {maxDigits : Option Nat} (hradix : 1 < radix) (hle : radix ≤ 16)
    (hn : n < limit) (hmax : ∀ max ∈ maxDigits, (numeral radix n).length ≤ max) :
    readDigits radix limit maxDigits 0 0 (numeral radix n ++ rest) =
      readDigits radix limit maxDigits n (numeral radix n).length rest := by
  -- the last digit is read after all that the quotient is printed with
  have hlast : ∀ (result count d : Nat) (rest : List UInt8), d < radix → result * radix + d < limit →
      (∀ max ∈ maxDigits, count + 1 ≤ max) →
      readDigits radix limit maxDigits result count (UInt8.ofNat d.digitChar.toNat :: rest) =
        readDigits radix limit maxDigits (result * radix + d) (count + 1) rest := by
    intro result count d rest hd hlt hmax
    rw [readDigits, toDigit_digitChar hle hd]
    cases maxDigits with
    | none => exact if_neg (by omega)
    | some max => exact if_neg (Nat.not_lt.mpr (hmax max rfl))
  induction n using Nat.strong_induction_on generalizing rest with
  | h n ih =>
    by_cases hlt : n < radix
    · have hone : numeral radix n = [UInt8.ofNat n.digitChar.toNat] := by
        rw [numeral, Nat.toDigits_of_lt_base hlt]
        rfl
      rw [hone] at hmax ⊢
      have hread := hlast 0 0 n rest hlt (by omega) hmax
      rwa [Nat.zero_mul, Nat.zero_add] at hread
    · have hdiv : n / radix < n := Nat.div_lt_self (by omega) hradix
      have hsplit : n / radix * radix + n % radix = n := Nat.div_add_mod' n radix
      rw [numeral_step hradix (by omega)] at hmax ⊢
      rw [List.length_append, List.length_singleton] at hmax
      rw [List.append_assoc, ih _ hdiv (by omega) (fun max hm => by have := hmax max hm; omega),
        List.singleton_append, hlast _ _ _ _ (Nat.mod_lt n (by omega)) (by omega) hmax, hsplit,
        List.length_append, List.length_singleton]

/-- **What is printed is read back**, in front of anything but a digit. -/
theorem readNumber_numeral {limit : Nat} {maxDigits : Option Nat} {allowZeroPrefix : Bool} (hradix : 1 < radix)
    (hle : radix ≤ 16) (hn : n < limit) (hmax : ∀ max ∈ maxDigits, (numeral radix n).length ≤ max)
    (hrest : ∀ b ∈ rest.head?, toDigit radix b = none) :
    readNumber radix limit maxDigits allowZeroPrefix (numeral radix n ++ rest) = some (n, rest) := by
  have hpos : 0 < (numeral radix n).length := length_numeral_pos
  obtain ⟨b, bs, hb⟩ := List.exists_cons_of_ne_nil (List.length_pos_iff.mp hpos)
  have hread : readDigits radix limit maxDigits 0 0 (numeral radix n ++ rest) = _ :=
    readDigits_numeral hradix hle hn hmax
  have hzero : ¬ (!allowZeroPrefix ∧ (numeral radix n ++ rest).head? = some 0x30 ∧ (numeral radix n).length > 1) := by
    intro h
    obtain ⟨_, hhead, hlen⟩ := h
    by_cases hn0 : n = 0
    · rw [hn0, numeral, Nat.toDigits_zero] at hlen
      exact absurd hlen (by decide)
    · have hne := head_numeral hradix hle (Nat.pos_of_ne_zero hn0)
      rw [hb] at hhead hne
      exact hne hhead
  rw [readDigits_stop hrest] at hread
  simp only [readNumber, hread, Option.bind_eq_bind, Option.bind_some]
  rw [if_neg (by omega), if_neg hzero, if_pos hn]

/-! ## What reading takes -/

theorem readDigits_takes {limit : Nat} {maxDigits : Option Nat} {result count r c : Nat}
    (h : readDigits radix limit maxDigits result count text = some (r, c, rest)) :
    ∃ used, text = used ++ rest ∧ c = count + used.length ∧ r < (result + 1) * radix ^ used.length := by
  induction text generalizing result count with
  | nil =>
    cases h
    exact ⟨[], rfl, rfl, by simp⟩
  | cons b text ih =>
    rw [readDigits] at h
    cases hd : toDigit radix b with
    | none =>
      rw [hd] at h
      cases h
      exact ⟨[], rfl, rfl, by simp⟩
    | some d =>
      have hlt : d < radix := by
        rw [toDigit] at hd
        split at hd
        · cases hd
          assumption
        · cases hd
      have hnext : readDigits radix limit maxDigits (result * radix + d) (count + 1) text = some (r, c, rest) := by
        rw [hd] at h
        cases maxDigits with
        | none => exact ((Option.ite_none_left_eq_some).mp h).2
        | some max => exact ((Option.ite_none_left_eq_some).mp h).2
      obtain ⟨used, rfl, rfl, hr⟩ := ih hnext
      refine ⟨b :: used, rfl, by simp; omega, Nat.lt_of_lt_of_le hr ?_⟩
      have hstep : result * radix + d + 1 ≤ (result + 1) * radix := by
        rw [Nat.add_mul]
        omega
      calc (result * radix + d + 1) * radix ^ used.length
          ≤ (result + 1) * radix * radix ^ used.length := Nat.mul_le_mul_right _ hstep
        _ = (result + 1) * radix ^ (b :: used).length := by
          rw [List.length_cons, Nat.pow_succ', Nat.mul_assoc]

/-- A number is read from no fewer digits than it is printed with. -/
theorem readNumber_takes {limit : Nat} {maxDigits : Option Nat} {allowZeroPrefix : Bool} (hradix : 1 < radix)
    (h : readNumber radix limit maxDigits allowZeroPrefix text = some (n, rest)) :
    n < limit ∧ ∃ used, text = used ++ rest ∧ (numeral radix n).length ≤ used.length := by
  simp only [readNumber, Option.bind_eq_bind, Option.bind_eq_some_iff, Prod.exists] at h
  obtain ⟨r, c, rest', hd, h⟩ := h
  obtain ⟨used, htext, hc, hr⟩ := readDigits_takes hd
  rw [Option.ite_none_left_eq_some, Option.ite_none_left_eq_some, Option.ite_none_right_eq_some] at h
  obtain ⟨hcount, _, hlimit, he⟩ := h
  cases he
  rw [Nat.zero_add, Nat.one_mul] at hr
  rw [Nat.zero_add] at hc
  exact ⟨hlimit, used, htext, (length_numeral_le hradix (by omega)).mpr hr⟩

end Numerals
