/-
The identity of a provider account (`account_identity` in
`completion_wire.rs`).

The account's key is written as JSON, and that text is the identity. No two
keys have one text: the quoted namespace ends where its bytes cannot be
escapes, whatever it imitates, and the bytes after it are numbers between
commas.
-/
import ProviderSdk.CompletionWire
import ProviderSdk.Lib.PrefixCode
import ProviderSdk.SampleJson
import ProviderSdk.Validation

namespace ProviderSdk

open Checks Text

/-- `serde_json::to_string` of a key's namespace and bytes. -/
def accountText (V : Type) [SerdeJson V] (account : V1.Key) : Option String :=
  String.fromUTF8? ⟨(jsonText (V := V)
    (.seq [.str account.namespaceName, .seq (account.value.map fun byte => .int byte.toNat)])).toArray⟩

def accountIdentity (V : Type) [SerdeJson V] (account : V1.Key) : Except WireError Identity := do
  (key account "account").mapError fun _ => .invalidModel .invalidIdentity
  reject (account.namespaceName.utf8ByteSize > 4096 ∨ account.value.length > 4096) .limitExceeded
  let value ← okOr (accountText V account) .invalidJson
  let name ← fromModel (Name.new "provider:account")
  fromModel (Identity.new name value)

/-! ## Strings -/

/-- The bytes `serde_json` does not write as they are. -/
def escapedBytes : List UInt8 := [0x22, 0x5C] ++ (List.range 0x20).map UInt8.ofNat

theorem escapeByte_plain {b : UInt8} (h : b ∉ escapedBytes) : escapeByte b = [b] := by
  have hne : ∀ e ∈ escapedBytes, b ≠ e := fun e he hb => h (hb ▸ he)
  have hlow : ¬ b < 0x20 := fun hb => h (by
    have hb' : b.toNat < 0x20 := hb
    exact List.mem_append_right _ (List.mem_map.mpr ⟨b.toNat, List.mem_range.mpr hb', UInt8.ofNat_toNat⟩))
  unfold escapeByte
  rw [if_neg (hne _ (by decide)), if_neg (hne _ (by decide)), if_neg (hne _ (by decide)),
    if_neg (hne _ (by decide)), if_neg (hne _ (by decide)), if_neg (hne _ (by decide)),
    if_neg (hne _ (by decide)), if_neg hlow]

/-- An escape is told by its backslash, which no byte is written as. -/
theorem escapeByte_escaped : ∀ b ∈ escapedBytes, ∃ w, escapeByte b = 0x5C :: w := by
  have h : ∀ b ∈ escapedBytes, (escapeByte b).head? = some 0x5C := by decide +kernel
  intro b hb
  exact ⟨_, List.eq_cons_of_mem_head? (h b hb)⟩

theorem escapeByte_prefixCode : PrefixCode escapeByte := by
  have hescaped : ∀ a ∈ escapedBytes, ∀ b ∈ escapedBytes, escapeByte a <+: escapeByte b → a = b := by
    decide +kernel
  have hback : (0x5C : UInt8) ∈ escapedBytes := by decide
  intro a b h
  by_cases ha : a ∈ escapedBytes
  · by_cases hb : b ∈ escapedBytes
    · exact hescaped a ha b hb h
    · obtain ⟨w, hw⟩ := escapeByte_escaped a ha
      rw [hw, escapeByte_plain hb, List.cons_prefix_cons] at h
      exact absurd (h.1 ▸ hback) hb
  · rw [escapeByte_plain ha] at h
    by_cases hb : b ∈ escapedBytes
    · obtain ⟨w, hw⟩ := escapeByte_escaped b hb
      rw [hw, List.cons_prefix_cons] at h
      exact absurd (h.1.symm ▸ hback) ha
    · rw [escapeByte_plain hb, List.cons_prefix_cons] at h
      exact h.1

/-- No byte is written starting with a quote. -/
theorem escapeByte_unquoted (b : UInt8) : ∃ c w, escapeByte b = c :: w ∧ c ≠ 0x22 := by
  by_cases hb : b ∈ escapedBytes
  · obtain ⟨w, hw⟩ := escapeByte_escaped b hb
    exact ⟨_, w, hw, by decide⟩
  · exact ⟨b, [], escapeByte_plain hb, fun h => hb (h ▸ by decide)⟩

variable {V : Type} [SerdeJson V]

/-- Where two texts begin with strings, the strings are the same. -/
theorem ScalarJson.str_prefixCode (hs : ScalarJson V) : PrefixCode fun s => jsonText (V := V) (.str s) := by
  have h := ((escapeByte_prefixCode.flatMap_stop escapeByte_unquoted).comp utf8_injective).opened [0x22]
  simpa only [hs.str, List.append_assoc] using h

/-! ## Bytes -/

/-- The number a decimal text stands for. -/
def decimalValue (text : List UInt8) : Nat := text.foldl (fun n digit => 10 * n + (digit - 0x30).toNat) 0

/-- The decimal text of a byte is read back, and has no comma in it. -/
theorem decimal_byte : ∀ n < 256, decimalValue (utf8 (toString (Int.ofNat n))) = n ∧
    0x2C ∉ utf8 (toString (Int.ofNat n)) := by decide +kernel

theorem ScalarJson.int_byte (hs : ScalarJson V) (b : UInt8) :
    decimalValue (jsonText (V := V) (.int b.toNat)) = b.toNat ∧ 0x2C ∉ jsonText (V := V) (.int b.toNat) := by
  rw [hs.int]
  exact decimal_byte b.toNat b.toNat_lt

/-- A list of bytes is read back from its array. -/
theorem bytes_injective (hc : CompactJson V) (hs : ScalarJson V) {bs bs' : List UInt8} (hne : bs ≠ [])
    (hne' : bs' ≠ []) (h : jsonText (V := V) (.seq (bs.map fun b => .int b.toNat)) =
      jsonText (V := V) (.seq (bs'.map fun b => .int b.toNat))) : bs = bs' := by
  have hcomma : ∀ bs : List UInt8, ∀ w ∈ bs.map fun b => jsonText (V := V) (.int b.toNat), 0x2C ∉ w := by
    intro bs w hw
    obtain ⟨b, _, rfl⟩ := List.mem_map.mp hw
    exact (hs.int_byte b).2
  have hbyte : Function.Injective fun b : UInt8 => jsonText (V := V) (.int b.toNat) := by
    intro a b hab
    have hv := congrArg decimalValue hab
    rw [(hs.int_byte a).1, (hs.int_byte b).1] at hv
    exact UInt8.toNat_inj.mp hv
  rw [hc.seq, hc.seq, List.map_map, List.map_map, List.append_cancel_right_eq, List.append_cancel_left_eq] at h
  exact hbyte.list_map (intercalate_inj (by simpa using hne) (by simpa using hne') (hcomma bs) (hcomma bs') h)

/-! ## Accounts -/

theorem accountIdentity_ok {k : V1.Key} {i : Identity} (h : accountIdentity V k = .ok i) :
    k.value ≠ [] ∧ accountText V k = some i.value := by
  simp only [accountIdentity, bind_ok, mapError_ok, key_ok, exists_const, reject_ok, okOr_ok, fromModel_ok,
    Identity.new_ok] at h
  obtain ⟨hk, _, value, hv, _, _, _, he⟩ := h
  exact ⟨hk.2, he ▸ hv⟩

/-- The text keeps the JSON it was read from. -/
theorem accountText_inj {k k' : V1.Key} {text : String} (h : accountText V k = some text)
    (h' : accountText V k' = some text) :
    jsonText (V := V) (.seq [.str k.namespaceName, .seq (k.value.map fun byte => .int byte.toNat)]) =
      jsonText (V := V) (.seq [.str k'.namespaceName, .seq (k'.value.map fun byte => .int byte.toNat)]) := by
  have hbytes := (toByteArray_of_fromUTF8 h).symm.trans (toByteArray_of_fromUTF8 h')
  exact Array.mk.inj (ByteArray.mk.inj hbytes)

/-- **One account, one identity.** Keys whose account identities are equal
are equal, so no two accounts of a provider are taken for one. -/
theorem accountIdentity_injective (hc : CompactJson V) (hs : ScalarJson V) {k k' : V1.Key} {i i' : Identity}
    (h : accountIdentity V k = .ok i) (h' : accountIdentity V k' = .ok i') (he : i = i') : k = k' := by
  obtain ⟨hne, ht⟩ := accountIdentity_ok h
  obtain ⟨hne', ht'⟩ := accountIdentity_ok h'
  have htext := accountText_inj ht (he ▸ ht')
  rw [hc.seq, hc.seq, List.append_cancel_right_eq, List.append_cancel_left_eq] at htext
  simp only [List.map_cons, List.map_nil, List.intercalate_cons_cons, List.intercalate_singleton,
    List.append_assoc] at htext
  obtain ⟨hnamespace, hrest⟩ := hs.str_prefixCode.append_inj htext
  have hvalue := bytes_injective hc hs hne hne' (List.append_cancel_left hrest)
  cases k
  cases k'
  simp_all

/-- A key whose namespace imitates what follows one. -/
def imitatingKey : V1.Key := ⟨"a\",[1", [2, 255]⟩

theorem imitatingKey_distinct :
    (∃ i, accountIdentity SampleJson imitatingKey = .ok i) ∧
      accountIdentity SampleJson imitatingKey ≠ accountIdentity SampleJson ⟨"a", [1, 2, 255]⟩ := by
  have h : accountIdentity SampleJson imitatingKey =
      .ok ⟨⟨"provider:account", by decide⟩, "[\"a\\\",[1\",[2,255]]", by decide⟩ := rfl
  refine ⟨⟨_, h⟩, fun he => ?_⟩
  have hkey := accountIdentity_injective SampleJson.compact SampleJson.scalars h (he ▸ h) rfl
  exact absurd hkey (by decide)

end ProviderSdk
