/-
Which account keys have an identity (`account_identity` in
`completion_wire.rs`).

`account_identity` limits the namespace and the bytes of a key, and then takes
the JSON text of the key for an identity, which is limited too. The text is
written out here as a string (`accountText_eq`): nothing in it is refused but
its length, which `accountTextLength` tells from the key.
-/
import Mathlib.Algebra.Group.Action.Defs
import ProviderSdk.AccountIdentity

namespace ProviderSdk

open Checks Text

/-! ## Characters -/

/-- Of the characters that are no control characters, those JSON escapes: the
quote and the backslash. -/
def isEscaped (c : Char) : Bool := c.val == 0x22 || c.val == 0x5C

def escapeChar (c : Char) : List Char := if isEscaped c then ['\u005C', c] else [c]

theorem isControl_escapeChar {c d : Char} (hd : isControl d = false) (hc : c ∈ escapeChar d) :
    isControl c = false := by
  rw [escapeChar] at hc
  split at hc
  · rcases List.mem_cons.mp hc with rfl | hc
    · rfl
    · rw [List.mem_singleton.mp hc]
      exact hd
  · rw [List.mem_singleton.mp hc]
    exact hd

theorem mem_escapedBytes {b : UInt8} (h : b ∈ escapedBytes) :
    b.toNat = 0x22 ∨ b.toNat = 0x5C ∨ b.toNat < 0x20 := by
  rcases List.mem_append.mp h with h | h
  · simp only [List.mem_cons, List.not_mem_nil, or_false] at h
    rcases h with rfl | rfl
    · exact .inl rfl
    · exact .inr (.inl rfl)
  · obtain ⟨n, hn, rfl⟩ := List.mem_map.mp h
    have hlt := List.mem_range.mp hn
    rw [UInt8.toNat_ofNat']
    omega

/-- No byte of any other character is escaped. -/
theorem utf8EncodeChar_unescaped {c : Char} (hc : isControl c = false) (he : isEscaped c = false) :
    ∀ b ∈ String.utf8EncodeChar c, b ∉ escapedBytes := by
  intro b hb hmem
  have hcases := mem_escapedBytes hmem
  by_cases ha : c.toNat < 0x80
  · rw [utf8EncodeChar_ascii ha, List.mem_singleton] at hb
    have hnat : b.toNat = c.toNat := by
      rw [hb, UInt8.toNat_ofNat']
      omega
    have hv : c.val.toNat = c.toNat := rfl
    simp only [isControl, Bool.or_eq_false_iff, decide_eq_false_iff_not, UInt32.le_iff_toNat_le,
      UInt32.reduceToNat] at hc
    simp only [isEscaped, Bool.or_eq_false_iff, beq_eq_false_iff_ne, ne_eq, ← UInt32.toNat_inj,
      UInt32.reduceToNat] at he
    omega
  · have hge := utf8EncodeChar_ge (Nat.le_of_not_lt ha) b hb
    omega

/-- What is escaped byte by byte could be escaped character by character. -/
theorem escape_utf8EncodeChar {c : Char} (hc : isControl c = false) :
    (String.utf8EncodeChar c).flatMap escapeByte = (escapeChar c).flatMap String.utf8EncodeChar := by
  by_cases he : isEscaped c = true
  · have hval : c = '\u0022' ∨ c = '\u005C' := by
      rw [isEscaped, Bool.or_eq_true, beq_iff_eq, beq_iff_eq] at he
      exact he.imp (fun h => Char.ext h) fun h => Char.ext h
    rcases hval with rfl | rfl <;> rfl
  · have hplain : ∀ b ∈ String.utf8EncodeChar c, escapeByte b = [b] := fun b hb =>
      escapeByte_plain (utf8EncodeChar_unescaped hc (Bool.not_eq_true _ ▸ he) b hb)
    rw [escapeChar, if_neg he, List.flatMap_singleton, List.flatMap_congr hplain, List.flatMap_singleton']

theorem escape_utf8 {s : String} (hs : hasControl s = false) :
    (utf8 s).flatMap escapeByte = (s.toList.flatMap escapeChar).flatMap String.utf8EncodeChar := by
  rw [utf8, List.flatMap_assoc, List.flatMap_assoc]
  exact List.flatMap_congr fun c hc => escape_utf8EncodeChar (hasControl_eq_false.mp hs c hc)

/-- Escaping makes a text longer by the characters escaped. -/
theorem length_escape (l : List Char) :
    ((l.flatMap escapeChar).flatMap String.utf8EncodeChar).length =
      (l.flatMap String.utf8EncodeChar).length + l.countP isEscaped := by
  induction l with
  | nil => rfl
  | cons c l ih =>
    simp only [List.flatMap_cons, List.flatMap_append, List.length_append, ih, List.countP_cons]
    by_cases he : isEscaped c = true
    · rw [escapeChar, if_pos he, if_pos he, List.flatMap_cons, List.flatMap_singleton, List.length_append]
      have hback : (String.utf8EncodeChar '\u005C').length = 1 := rfl
      omega
    · rw [escapeChar, if_neg he, if_neg he, List.flatMap_singleton]
      omega

/-! ## The text of a key -/

def decimalByte (byte : UInt8) : List Char := (toString (Int.ofNat byte.toNat)).toList

/-- How many digits the number of a byte has. -/
def decimalLength (byte : UInt8) : Nat := if byte < 10 then 1 else if byte < 100 then 2 else 3

theorem decimalByte_spec : ∀ n < 256, (utf8 (toString (Int.ofNat n))).length = decimalLength (UInt8.ofNat n) ∧
    hasControl (toString (Int.ofNat n)) = false := by decide +kernel

theorem isControl_decimalByte {c : Char} {byte : UInt8} (hc : c ∈ decimalByte byte) : isControl c = false :=
  hasControl_eq_false.mp (decimalByte_spec byte.toNat byte.toNat_lt).2 c hc

/-- The JSON text of a key whose namespace has no control characters. -/
def accountString (account : V1.Key) : String :=
  String.ofList (['[', '\u0022'] ++ account.namespaceName.toList.flatMap escapeChar ++ ['\u0022', ',', '['] ++
    [','].intercalate (account.value.map decimalByte) ++ [']', ']'])

/-- The length of that text: the namespace, a backslash for each character of
it that is escaped, each byte's digits and the comma or bracket after them,
and six characters around. -/
def accountTextLength (account : V1.Key) : Nat :=
  account.namespaceName.utf8ByteSize + account.namespaceName.toList.countP isEscaped +
    (account.value.map fun byte => decimalLength byte + 1).sum + 6

variable {V : Type} [SerdeJson V] {k : V1.Key}

theorem jsonText_account (hc : CompactJson V) (hs : ScalarJson V) (hk : hasControl k.namespaceName = false) :
    jsonText (V := V) (.seq [.str k.namespaceName, .seq (k.value.map fun byte => .int byte.toNat)]) =
      utf8 (accountString k) := by
  have hbytes : (k.value.map fun byte => Serialize.int (V := V) byte.toNat).map jsonText =
      (k.value.map decimalByte).map fun x => x.flatMap String.utf8EncodeChar := by
    rw [List.map_map, List.map_map]
    exact List.map_congr_left fun byte _ => hs.int byte.toNat
  rw [hc.seq, List.map_cons, List.map_singleton, List.intercalate_cons_cons, List.intercalate_singleton, hc.seq,
    hbytes, hs.str, escape_utf8 hk, accountString, utf8_ofList]
  simp only [List.flatMap_append, flatMap_intercalate, List.append_assoc]
  rfl

theorem accountText_eq (hc : CompactJson V) (hs : ScalarJson V) (hk : hasControl k.namespaceName = false) :
    accountText V k = some (accountString k) := by
  rw [accountText, jsonText_account hc hs hk, fromUTF8_utf8]

/-- No control character gets into the text of a key. -/
theorem hasControl_accountString (hk : hasControl k.namespaceName = false) :
    hasControl (accountString k) = false := by
  rw [hasControl, accountString, String.toList_ofList]
  simp only [List.any_append, Bool.or_eq_false_iff]
  refine ⟨⟨⟨⟨rfl, any_isControl.mpr fun c hc => ?_⟩, rfl⟩, any_isControl.mpr fun c hc => ?_⟩, rfl⟩
  · obtain ⟨d, hd, hc⟩ := List.mem_flatMap.mp hc
    exact isControl_escapeChar (hasControl_eq_false.mp hk d hd) hc
  · rcases mem_intercalate hc with hc | ⟨x, hx, hc⟩
    · rw [List.mem_singleton.mp hc]
      rfl
    · obtain ⟨byte, _, rfl⟩ := List.mem_map.mp hx
      exact isControl_decimalByte hc

theorem utf8ByteSize_accountString (hv : k.value ≠ []) :
    (accountString k).utf8ByteSize = accountTextLength k := by
  have hbytes : ([','].intercalate (k.value.map decimalByte)).flatMap String.utf8EncodeChar =
      [0x2C].intercalate (k.value.map fun byte => utf8 (toString (Int.ofNat byte.toNat))) := by
    rw [flatMap_intercalate, List.map_map]
    rfl
  have hne : (k.value.map fun byte => utf8 (toString (Int.ofNat byte.toNat))) ≠ [] := by
    simpa using hv
  have hlength := length_intercalate (s := [(0x2C : UInt8)]) hne
  have hsum : ((k.value.map fun byte => utf8 (toString (Int.ofNat byte.toNat))).map fun x => x.length + 1) =
      k.value.map fun byte => decimalLength byte + 1 := by
    rw [List.map_map]
    refine List.map_congr_left fun byte _ => ?_
    rw [Function.comp_apply, (decimalByte_spec byte.toNat byte.toNat_lt).1, UInt8.ofNat_toNat]
  have hns := length_escape k.namespaceName.toList
  have hends : (['[', '\u0022'].flatMap String.utf8EncodeChar).length = 2 ∧
      (['\u0022', ',', '['].flatMap String.utf8EncodeChar).length = 3 ∧
      ([']', ']'].flatMap String.utf8EncodeChar).length = 2 := ⟨rfl, rfl, rfl⟩
  rw [← utf8, length_utf8] at hns
  rw [List.length_singleton, hsum] at hlength
  rw [← length_utf8, accountString, utf8_ofList]
  simp only [List.flatMap_append, List.length_append, hns, hbytes, hends]
  rw [accountTextLength]
  omega

/-- The text of a key is refused as an identity for its length alone. -/
theorem identityAccepted_accountString (hk : k.WellFormed) :
    identityAccepted (accountString k) = true ↔ accountTextLength k ≤ 4096 := by
  obtain ⟨hns, hv⟩ := hk
  have hlength := utf8ByteSize_accountString hv
  have hne : ¬ accountString k = "" := by
    rw [← String.utf8ByteSize_eq_zero_iff, hlength, accountTextLength]
    omega
  simp only [identityAccepted, hasControl_accountString hns.2, hlength, Bool.not_eq_true', Bool.or_eq_false_iff,
    beq_eq_false_iff_ne, ne_eq, hne, not_false_eq_true, true_and, and_true, decide_eq_false_iff_not]
  omega

def accountName : Name := ⟨"provider:account", by decide⟩

/-- What is left of `account_identity` once a key has passed its checks. -/
theorem accountIdentity_eq (hc : CompactJson V) (hs : ScalarJson V) (hk : k.WellFormed)
    (hns : k.namespaceName.utf8ByteSize ≤ 4096) (hv : k.value.length ≤ 4096) :
    accountIdentity V k = fromModel (Identity.new accountName (accountString k)) := by
  have hkey : key k "account" = .ok () := key_ok.mpr hk
  have hlimits : ¬ (k.namespaceName.utf8ByteSize > 4096 ∨ k.value.length > 4096) := by omega
  have hname : fromModel (Name.new "provider:account") = .ok accountName := fromModel_new_value accountName
  simp only [accountIdentity, hkey, reject, if_neg hlimits, accountText_eq hc hs hk.1.2, okOr, hname, Except.mapError,
    bind, Except.bind]

/-- A byte of a key takes two characters at least. -/
theorem length_le_accountTextLength : 2 * k.value.length + 6 ≤ accountTextLength k := by
  have hdigit : ∀ byte : UInt8, 1 ≤ decimalLength byte := fun byte => by
    rw [decimalLength]
    split
    · exact Nat.le_refl 1
    · split <;> omega
  have hsum := List.card_nsmul_le_sum (k.value.map fun byte => decimalLength byte + 1) 2 fun n hn => by
    obtain ⟨byte, _, rfl⟩ := List.mem_map.mp hn
    have hbyte := hdigit byte
    omega
  rw [List.length_map, smul_eq_mul] at hsum
  rw [accountTextLength]
  omega

/-- The limit on the bytes of a key never decides: a key of half as many has
no identity. -/
theorem length_of_accountIdentity (hc : CompactJson V) (hs : ScalarJson V) {i : Identity}
    (h : accountIdentity V k = .ok i) : k.value.length ≤ 2045 := by
  have htext := (accountIdentity_ok h).2
  simp only [accountIdentity, bind_ok, mapError_ok, key_ok, exists_const] at h
  have hk := h.1
  rw [accountText_eq hc hs hk.1.2, Option.some.injEq] at htext
  have hshort := (identityAccepted_accountString hk).mp (htext ▸ i.accepted)
  have hle := length_le_accountTextLength (k := k)
  omega

/-- **The limit that decides.** A key that passes `validation::key` and is
within the limits on namespace and bytes has an account identity exactly when
its JSON text is at most 4096 bytes long. -/
theorem accountIdentity_isOk_iff (hc : CompactJson V) (hs : ScalarJson V) (hk : key k "account" = .ok ())
    (hns : k.namespaceName.utf8ByteSize ≤ 4096) (hv : k.value.length ≤ 4096) :
    (∃ i, accountIdentity V k = .ok i) ↔ accountTextLength k ≤ 4096 := by
  have hwell := key_ok.mp hk
  rw [accountIdentity_eq hc hs hwell hns hv, ← identityAccepted_accountString hwell]
  refine ⟨fun h => ?_, fun h => ?_⟩
  · obtain ⟨i, h⟩ := h
    obtain ⟨_, hvalue⟩ := Identity.new_ok.mp (fromModel_ok.mp h)
    exact hvalue ▸ i.accepted
  · exact ⟨⟨accountName, accountString k, h⟩, fromModel_ok.mpr (Identity.new_ok.mpr ⟨rfl, rfl⟩)⟩

/-- A key whose text is as long as an identity can be. -/
def fittingKey : V1.Key := ⟨"provider.account", List.replicate 1018 255 ++ [0]⟩

theorem fittingKey_accepted : ∃ i, accountIdentity SampleJson fittingKey = .ok i :=
  (accountIdentity_isOk_iff SampleJson.compact SampleJson.scalars (by decide +kernel) (by decide +kernel)
    (by decide +kernel)).mpr (by decide +kernel)

/-- A key within both limits, a quarter of what they allow. -/
def wideKey : V1.Key := ⟨"provider.account", List.replicate 1024 255⟩

theorem wideKey_refused : key wideKey "account" = .ok () ∧ wideKey.namespaceName.utf8ByteSize ≤ 4096 ∧
    wideKey.value.length ≤ 4096 ∧ accountIdentity SampleJson wideKey = .error (.invalidModel .invalidIdentity) := by
  have hk : wideKey.WellFormed := by refine ⟨⟨?_, ?_⟩, ?_⟩ <;> decide +kernel
  have hns : wideKey.namespaceName.utf8ByteSize ≤ 4096 := by decide +kernel
  have hv : wideKey.value.length ≤ 4096 := by decide +kernel
  have hlong : ¬ identityAccepted (accountString wideKey) = true := by
    rw [identityAccepted_accountString hk]
    decide +kernel
  refine ⟨key_ok.mpr hk, hns, hv, ?_⟩
  rw [accountIdentity_eq SampleJson.compact SampleJson.scalars hk hns hv, Identity.new, dif_neg hlong]
  rfl

end ProviderSdk
