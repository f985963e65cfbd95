/-
Text and machine integers as the Rust standard library has them: the
character classes, the splits of a string, and `usize` arithmetic that
reports overflow. A string's length is its UTF-8 length (`utf8ByteSize`).
-/
import ProviderSdk.Lib.Checks
import Mathlib.Algebra.Order.BigOperators.Group.List
import Mathlib.Algebra.GroupWithZero.Nat
import Mathlib.Algebra.Order.Monoid.Canonical.Defs
import Mathlib.Data.List.TakeWhile
import Mathlib.Data.String.Basic

namespace Text

/-- `char::is_control`: the Unicode category `Cc`. -/
def isControl (c : Char) : Bool :=
  c.val ≤ 0x1F || (0x7F ≤ c.val && c.val ≤ 0x9F)

/-- `char::is_whitespace`: the Unicode property `White_Space`. -/
def isWhitespace (c : Char) : Bool :=
  (0x09 ≤ c.val && c.val ≤ 0x0D) || c.val == 0x20 || c.val == 0x85 || c.val == 0xA0 ||
    c.val == 0x1680 || (0x2000 ≤ c.val && c.val ≤ 0x200A) || c.val == 0x2028 || c.val == 0x2029 ||
    c.val == 0x202F || c.val == 0x205F || c.val == 0x3000

/-- `str.chars().any(char::is_control)`. -/
def hasControl (s : String) : Bool := s.toList.any isControl

theorem any_isControl {l : List Char} : l.any isControl = false ↔ ∀ c ∈ l, isControl c = false := by
  rw [List.any_eq_false]
  exact forall₂_congr fun c _ => Bool.not_eq_true (isControl c) ▸ Iff.rfl

theorem hasControl_eq_false {s : String} : hasControl s = false ↔ ∀ c ∈ s.toList, isControl c = false := any_isControl

/-- `str::trim`. -/
def trim (s : List Char) : List Char :=
  ((s.dropWhile isWhitespace).reverse.dropWhile isWhitespace).reverse

/-- `str::split_once`: what stands before and after the first occurrence of
`pat`. -/
def splitOnce (pat : List Char) : List Char → Option (List Char × List Char)
  | [] => if pat.isEmpty then some ([], []) else none
  | c :: cs =>
    if pat.isPrefixOf (c :: cs) then some ([], (c :: cs).drop pat.length)
    else (splitOnce pat cs).map fun (before, after) => (c :: before, after)

/-- The parts of a split are the text again, with the separator between
them. -/
theorem splitOnce_eq_some {pat l before after : List Char} (h : splitOnce pat l = some (before, after)) :
    l = before ++ pat ++ after := by
  induction l generalizing before with
  | nil =>
    rw [splitOnce] at h
    split at h
    · rename_i hpat
      cases h
      rw [List.isEmpty_iff.mp hpat]
      rfl
    · cases h
  | cons c cs ih =>
    rw [splitOnce] at h
    split at h
    · rename_i hp
      cases h
      obtain ⟨t, ht⟩ := List.isPrefixOf_iff_prefix.mp hp
      rw [← ht, List.drop_left, List.nil_append]
    · obtain ⟨⟨b, a⟩, hs, he⟩ := Option.map_eq_some_iff.mp h
      cases he
      rw [ih hs]
      rfl

/-- A text splits where a separator first can start. -/
theorem splitOnce_append {p : Char} {pat before after : List Char} (h : p ∉ before) :
    splitOnce (p :: pat) (before ++ p :: pat ++ after) = some (before, after) := by
  induction before with
  | nil =>
    have hp : (p :: pat).isPrefixOf (p :: pat ++ after) = true :=
      List.isPrefixOf_iff_prefix.mpr (List.prefix_append _ _)
    rw [List.nil_append, List.cons_append, splitOnce, ← List.cons_append, if_pos hp, List.drop_left]
  | cons c cs ih =>
    have hc : p ≠ c := List.ne_of_not_mem_cons h
    have hcs : p ∉ cs := List.not_mem_of_not_mem_cons h
    have hp : ¬ (p :: pat).isPrefixOf (c :: (cs ++ p :: pat ++ after)) = true := by
      rw [List.isPrefixOf_iff_prefix, List.cons_prefix_cons]
      exact fun hp => hc hp.1
    rw [List.cons_append, List.cons_append, splitOnce, if_neg hp, ih hcs]
    rfl

theorem isWhitespace_of_isAlpha {c : Char} (h : c.isAlpha = true) : isWhitespace c = false := by
  have halpha : c.isAlpha = (decide (0x41 ≤ c.val ∧ c.val ≤ 0x5A) ||
      (decide (0x61 ≤ c.val) && decide (c.val ≤ 0x7A))) := rfl
  simp only [halpha, Bool.or_eq_true, Bool.and_eq_true, decide_eq_true_eq, UInt32.le_iff_toNat_le,
    UInt32.reduceToNat] at h
  simp only [isWhitespace, Bool.or_eq_false_iff, Bool.and_eq_false_iff, decide_eq_false_iff_not,
    beq_eq_false_iff_ne, UInt32.le_iff_toNat_le, ne_eq, ← UInt32.toNat_inj, UInt32.reduceToNat]
  omega

/-- What is trimmed away entirely is whitespace. -/
theorem trim_eq_nil {s : List Char} : trim s = [] ↔ ∀ c ∈ s, isWhitespace c = true := by
  rw [trim, List.reverse_eq_nil_iff, List.dropWhile_eq_nil_iff]
  refine ⟨fun h c hc => ?_, fun h c hc => ?_⟩
  · rw [← List.takeWhile_append_dropWhile (p := isWhitespace) (l := s), List.mem_append] at hc
    rcases hc with hc | hc
    · exact List.mem_takeWhile_imp hc
    · exact h c (List.mem_reverse.mpr hc)
  · exact h c ((List.dropWhile_sublist _).subset (List.mem_reverse.mp hc))

/-- The UTF-8 bytes of a string. -/
def utf8 (s : String) : List UInt8 := s.toList.flatMap String.utf8EncodeChar

theorem utf8_injective : Function.Injective utf8 := by
  intro s t h
  have hs : ∀ s : String, (utf8 s).toByteArray = s.toByteArray := fun s => by
    rw [utf8, ← String.utf8Encode_toList]
    rfl
  rw [← String.toByteArray_inj, ← hs s, ← hs t, h]

theorem length_utf8 (s : String) : (utf8 s).length = s.utf8ByteSize := by
  rw [← String.size_toByteArray, ← String.utf8Encode_toList, List.utf8Encode, List.size_toByteArray, utf8]

theorem utf8_ofList (l : List Char) : utf8 (String.ofList l) = l.flatMap String.utf8EncodeChar := by
  rw [utf8, String.toList_ofList]

/-- What `utf8` writes is read back. -/
theorem fromUTF8_utf8 (s : String) : String.fromUTF8? ⟨(utf8 s).toArray⟩ = some s := by
  have h : (⟨(utf8 s).toArray⟩ : ByteArray) = s.toByteArray := by
    rw [utf8, ← String.utf8Encode_toList, List.utf8Encode]
    exact ByteArray.ext List.data_toByteArray.symm
  rw [h, String.fromUTF8?, dif_pos s.isValidUTF8]
  rfl

theorem utf8EncodeChar_ascii {c : Char} (h : c.toNat < 0x80) :
    String.utf8EncodeChar c = [UInt8.ofNat c.toNat] := by
  have hc : c.utf8Size = 1 := by
    rw [Char.utf8Size_eq_one_iff, UInt32.le_iff_toNat_le]
    exact Nat.le_of_lt_succ h
  rw [String.utf8EncodeChar_eq_singleton hc]
  rfl

/-- No byte of a character outside ASCII is ASCII. -/
theorem utf8EncodeChar_ge {c : Char} (h : 0x80 ≤ c.toNat) : ∀ b ∈ String.utf8EncodeChar c, 0x80 ≤ b.toNat := by
  have hv : c.val.toNat = c.toNat := rfl
  fun_cases String.utf8EncodeChar c <;> intro b hb <;>
    simp only [List.mem_cons, List.not_mem_nil, or_false] at hb
  · omega
  · rcases hb with rfl | rfl <;> rw [UInt8.toNat_ofNat'] <;> omega
  · rcases hb with rfl | rfl | rfl <;> rw [UInt8.toNat_ofNat'] <;> omega
  · rcases hb with rfl | rfl | rfl | rfl <;> rw [UInt8.toNat_ofNat'] <;> omega

/-- The bytes a string was read from. -/
theorem toByteArray_of_fromUTF8 {bytes : ByteArray} {s : String} (h : String.fromUTF8? bytes = some s) :
    s.toByteArray = bytes := by
  unfold String.fromUTF8? at h
  split at h
  · cases h
    rfl
  · cases h

/-- `usize::checked_add`, on a 64-bit target. -/
def checkedAdd (a b : Nat) : Option Nat := if a + b < 2 ^ 64 then some (a + b) else none

/-- `usize::checked_sub`. -/
def checkedSub (a b : Nat) : Option Nat := if b ≤ a then some (a - b) else none

/-- `a + b` in `usize`, which panics where `checked_add` has no result. -/
def usizeAdd {ε} (a b : Nat) : Except (Checks.Fault ε) Nat := Checks.okOr (checkedAdd a b) .panic

theorem usizeAdd_ok {ε} {a b c : Nat} :
    usizeAdd a b = (.ok c : Except (Checks.Fault ε) Nat) ↔ a + b < 2 ^ 64 ∧ a + b = c := by
  rw [usizeAdd, Checks.okOr_ok, checkedAdd, Option.ite_none_right_eq_some, Option.some.injEq]

theorem checkedSub_eq_some {a b c : Nat} : checkedSub a b = some c ↔ b ≤ a ∧ a - b = c := by
  unfold checkedSub
  split <;> simp_all

/-- A checked sum kept under a limit is a plain sum kept under it. -/
theorem checkedAdd_filter_eq_some {a b c limit : Nat} (hl : limit < 2 ^ 64) :
    (checkedAdd a b).filter (· ≤ limit) = some c ↔ a + b ≤ limit ∧ a + b = c := by
  unfold checkedAdd
  split
  · simp only [Option.filter_some, decide_eq_true_eq, Option.ite_none_right_eq_some, Option.some.injEq]
  · simp only [Option.filter_none, reduceCtorEq, false_iff, not_and]
    omega

/-! ## Lines -/

/-- `BufRead::read_until`: the bytes up to the first delimiter, and it. -/
def readUntil (delimiter : UInt8) : List UInt8 → List UInt8
  | [] => []
  | b :: text => if b = delimiter then [b] else b :: readUntil delimiter text

/-- A line in front of the rest of a text: it ends with its one delimiter,
or with the text. -/
def EndsLine (delimiter : UInt8) (line rest : List UInt8) : Prop :=
  (∃ body, line = body ++ [delimiter] ∧ delimiter ∉ body) ∨ delimiter ∉ line ∧ rest = []

theorem readUntil_append {delimiter : UInt8} {line rest : List UInt8} (h : EndsLine delimiter line rest) :
    readUntil delimiter (line ++ rest) = line := by
  rcases h with ⟨body, rfl, hbody⟩ | ⟨hline, rfl⟩
  · induction body with
    | nil => simp [readUntil]
    | cons b body ih =>
      have hb : b ≠ delimiter := (List.ne_of_not_mem_cons hbody).symm
      rw [List.cons_append, List.cons_append, readUntil, if_neg hb, ih (List.not_mem_of_not_mem_cons hbody)]
  · rw [List.append_nil]
    induction line with
    | nil => rfl
    | cons b line ih =>
      have hb : b ≠ delimiter := (List.ne_of_not_mem_cons hline).symm
      rw [readUntil, if_neg hb, ih (List.not_mem_of_not_mem_cons hline)]

theorem readUntil_ends (delimiter : UInt8) (text : List UInt8) :
    ∃ rest, text = readUntil delimiter text ++ rest ∧ EndsLine delimiter (readUntil delimiter text) rest := by
  induction text with
  | nil => exact ⟨[], rfl, .inr ⟨by simp [readUntil], rfl⟩⟩
  | cons b text ih =>
    rw [readUntil]
    by_cases hb : b = delimiter
    · subst hb
      exact ⟨text, by simp, .inl ⟨[], by simp, by simp⟩⟩
    · obtain ⟨rest, htext, hends⟩ := ih
      rw [if_neg hb]
      refine ⟨rest, by rw [List.cons_append, ← htext], ?_⟩
      rcases hends with ⟨body, hbody, hmem⟩ | ⟨hmem, hrest⟩
      · exact .inl ⟨b :: body, by rw [hbody, List.cons_append], List.not_mem_cons_of_ne_of_not_mem (Ne.symm hb) hmem⟩
      · exact .inr ⟨List.not_mem_cons_of_ne_of_not_mem (Ne.symm hb) hmem, hrest⟩

/-- A line that a limit does not cut is a line of the whole text. -/
theorem readUntil_take {delimiter : UInt8} {text line rest : List UInt8} {limit : Nat} (hlen : line.length < limit) :
    readUntil delimiter (text.take limit) = line ∧ text.drop line.length = rest ↔
      text = line ++ rest ∧ EndsLine delimiter line rest := by
  refine ⟨fun h => ?_, fun h => ?_⟩
  · obtain ⟨rfl, rfl⟩ := h
    obtain ⟨cut, hcut, hends⟩ := readUntil_ends delimiter (text.take limit)
    generalize readUntil delimiter (text.take limit) = line at *
    have htext : text = line ++ (cut ++ text.drop limit) := by
      rw [← List.append_assoc, ← hcut, List.take_append_drop]
    have hdrop : text.drop line.length = cut ++ text.drop limit := by
      rw [htext, List.drop_left, ← htext]
    rw [hdrop]
    refine ⟨htext, ?_⟩
    rcases hends with h | ⟨hmem, rfl⟩
    · exact .inl h
    · rw [List.append_nil] at hcut
      have hshort : text.length ≤ limit := by
        have h := congrArg List.length hcut
        rw [List.length_take] at h
        omega
      exact .inr ⟨hmem, by rw [List.drop_eq_nil_of_le hshort, List.nil_append]⟩
  · obtain ⟨rfl, hends⟩ := h
    refine ⟨?_, List.drop_left⟩
    rw [List.take_append, List.take_of_length_le (Nat.le_of_lt hlen)]
    refine readUntil_append (hends.imp id fun h => ⟨h.1, ?_⟩)
    rw [h.2, List.take_nil]

/-! ## Separated lists -/

theorem length_intercalate {α} {s : List α} {xs : List (List α)} (h : xs ≠ []) :
    (s.intercalate xs).length + s.length = (xs.map fun x => x.length + s.length).sum := by
  induction xs with
  | nil => exact absurd rfl h
  | cons x xs ih =>
    cases xs with
    | nil => simp [List.intercalate]
    | cons y ys =>
      have ih := ih (by simp)
      simp only [List.intercalate, List.intersperse_cons_cons, List.flatten_cons, List.length_append,
        List.map_cons, List.sum_cons] at ih ⊢
      omega

theorem mem_intercalate {α} {s : List α} {xs : List (List α)} {a : α} (h : a ∈ s.intercalate xs) :
    a ∈ s ∨ ∃ x ∈ xs, a ∈ x := by
  induction xs with
  | nil => cases h
  | cons x xs ih =>
    cases xs with
    | nil =>
      rw [List.intercalate_singleton] at h
      exact .inr ⟨x, List.mem_singleton_self x, h⟩
    | cons y ys =>
      rw [List.intercalate_cons_cons, List.mem_append, List.mem_append] at h
      rcases h with (h | h) | h
      · exact .inr ⟨x, List.mem_cons_self, h⟩
      · exact .inl h
      · rcases ih h with h | ⟨z, hz, h⟩
        · exact .inl h
        · exact .inr ⟨z, List.mem_cons_of_mem x hz, h⟩

theorem flatMap_intercalate {α β} {s : List α} {xs : List (List α)} (f : α → List β) :
    (s.intercalate xs).flatMap f = (s.flatMap f).intercalate (xs.map fun x => x.flatMap f) := by
  induction xs with
  | nil => rfl
  | cons x xs ih =>
    cases xs with
    | nil => rw [List.map_singleton, List.intercalate_singleton, List.intercalate_singleton]
    | cons y ys =>
      rw [List.intercalate_cons_cons, List.flatMap_append, List.flatMap_append, ih, List.map_cons, List.map_cons,
        List.map_cons, List.intercalate_cons_cons]

/-- Leaving items out does not lengthen the joined text. -/
theorem length_intercalate_le {α} {s : List α} {xs ys : List (List α)} (h : xs.Sublist ys) :
    (s.intercalate xs).length ≤ (s.intercalate ys).length := by
  by_cases hx : xs = []
  · simp [hx, List.intercalate]
  · have hy : ys ≠ [] := fun hy => hx (List.sublist_nil.mp (hy ▸ h))
    have hsum : (xs.map fun x => x.length + s.length).sum ≤ (ys.map fun x => x.length + s.length).sum :=
      (h.map _).sum_le_sum fun _ _ => Nat.zero_le _
    rw [← length_intercalate hx, ← length_intercalate hy] at hsum
    omega

end Text
