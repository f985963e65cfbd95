/-
`serde_json`, as far as the SDK uses it, and the byte accounting over it.

The crate is not part of the repository, so it is a parameter: `SerdeJson V`
is what `to_writer`, `to_string` and `from_slice` do on its value type `V`.
What the SDK relies on is stated apart: the compact format as `CompactJson`,
and, where a result needs it, a hypothesis on `from_slice`. `Serialize` is
what the SDK's own `derive(Serialize)` types hand over.

`boundedJsonSize` counts the bytes a value serializes to while they are
written, and gives up at the limit (`boundedJsonSize_ok`).
-/
import ProviderSdk.Lib.Checks
import ProviderSdk.Lib.Text

namespace ProviderSdk

open Checks Text

/-- A value as a derived `Serialize` presents it. A `serde_json::Value`
stays whole, and an absent `Option` is `null`. -/
inductive Serialize (V : Type) where
  | value (v : V)
  | null
  | str (s : String)
  | int (n : Int)
  | seq (items : List (Serialize V))
  | struct (fields : List (String × Serialize V))

/-- The functions of `serde_json` the SDK calls: `to_writer` by the chunks
it hands to its writer, `to_string` by its bytes. `depth` is how many
arrays and objects deep a value is nested. -/
class SerdeJson (V : Type) where
  toWriter : Serialize V → List (List UInt8)
  toString : V → List UInt8
  fromSlice : List UInt8 → Option V
  depth : V → Nat

variable {V : Type} [SerdeJson V]

/-- The bytes `to_writer` writes. -/
def jsonText (value : Serialize V) : List UInt8 := (SerdeJson.toWriter value).flatten

/-- `serde_json`'s compact format: a sequence is its items between brackets,
separated by commas; a struct its `"field":value` pairs between braces; and
`to_string` is the text `to_writer` writes. -/
structure CompactJson (V : Type) [SerdeJson V] : Prop where
  seq : ∀ items : List (Serialize V),
    jsonText (.seq items) = [0x5B] ++ [0x2C].intercalate (items.map jsonText) ++ [0x5D]
  struct : ∀ fields : List (String × Serialize V),
    jsonText (.struct fields) = [0x7B] ++ [0x2C].intercalate
      (fields.map fun f => jsonText (V := V) (.str f.1) ++ [0x3A] ++ jsonText f.2) ++ [0x7D]
  toString : ∀ v : V, SerdeJson.toString v = jsonText (.value v)

/-- A hexadecimal digit, as `serde_json` writes it. -/
def hexDigit (d : UInt8) : UInt8 := if d < 10 then 0x30 + d else 0x57 + d

/-- How `serde_json` writes a byte of a string. -/
def escapeByte (b : UInt8) : List UInt8 :=
  if b = 0x22 then [0x5C, 0x22]
  else if b = 0x5C then [0x5C, 0x5C]
  else if b = 0x08 then [0x5C, 0x62]
  else if b = 0x09 then [0x5C, 0x74]
  else if b = 0x0A then [0x5C, 0x6E]
  else if b = 0x0C then [0x5C, 0x66]
  else if b = 0x0D then [0x5C, 0x72]
  else if b < 0x20 then [0x5C, 0x75, 0x30, 0x30, hexDigit (b / 16), hexDigit (b % 16)]
  else [b]

/-- How `serde_json` writes the rest: a string between quotes, escaped byte
by byte; an integer in decimal; and a `Value::Null`, which there is, as
`null`. -/
structure ScalarJson (V : Type) [SerdeJson V] : Prop where
  str : ∀ s : String, jsonText (V := V) (.str s) = [0x22] ++ (utf8 s).flatMap escapeByte ++ [0x22]
  int : ∀ n : Int, jsonText (V := V) (.int n) = utf8 (toString n)
  null : ∃ v : V, jsonText (.value v) = [0x6E, 0x75, 0x6C, 0x6C]

/-- `Value::Null` is written as `null` and read back from it. -/
def NullJson (V : Type) [SerdeJson V] : Prop :=
  ∃ v : V, jsonText (.value v) = [0x6E, 0x75, 0x6C, 0x6C] ∧ SerdeJson.fromSlice [0x6E, 0x75, 0x6C, 0x6C] = some v

/-- How `from_slice` takes back what `to_string` wrote: it gives up on a
value nested 128 levels deep, and reads every other. -/
structure RecursionLimit (V : Type) [SerdeJson V] : Prop where
  toString : ∀ v : V, SerdeJson.toString v = jsonText (.value v)
  shallow : ∀ v : V, SerdeJson.depth v < 128 → SerdeJson.fromSlice (SerdeJson.toString v) = some v
  deep : ∀ v : V, 128 ≤ SerdeJson.depth v → SerdeJson.fromSlice (V := V) (SerdeJson.toString v) = none

inductive JsonError where
  | exceedsLimits
  deriving DecidableEq

/-- The writer of `bounded_json_size`. -/
structure JsonSize where
  bytes : Nat
  limit : Nat

def JsonSize.write (self : JsonSize) (bytes : List UInt8) : Except JsonError JsonSize := do
  let size ← okOr ((checkedAdd self.bytes bytes.length).filter (· ≤ self.limit)) .exceedsLimits
  pure { self with bytes := size }

def boundedJsonSize (value : Serialize V) (limit : Nat) : Except JsonError Nat := do
  let size ← (SerdeJson.toWriter value).foldlM JsonSize.write ⟨0, limit⟩
  pure size.bytes

theorem JsonSize.foldlM_write {limit : Nat} (hl : limit < 2 ^ 64) :
    ∀ {chunks : List (List UInt8)} {n : Nat} {r : JsonSize}, n ≤ limit →
      (chunks.foldlM JsonSize.write ⟨n, limit⟩ = .ok r ↔
        n + chunks.flatten.length ≤ limit ∧ ⟨n + chunks.flatten.length, limit⟩ = r) := by
  intro chunks
  induction chunks with
  | nil =>
    intro n r hn
    simp only [List.foldlM_nil, pure_ok, List.flatten_nil, List.length_nil, Nat.add_zero, hn, true_and]
  | cons chunk chunks ih =>
    intro n r hn
    simp only [List.foldlM_cons, JsonSize.write, bind_ok, okOr_ok, pure_ok,
      checkedAdd_filter_eq_some hl, List.flatten_cons, List.length_append, ← Nat.add_assoc]
    refine ⟨fun h => ?_, fun h => ?_⟩
    · obtain ⟨_, ⟨_, ⟨hc, rfl⟩, rfl⟩, h⟩ := h
      exact (ih hc).mp h
    · have hc : n + chunk.length ≤ limit := by omega
      exact ⟨_, ⟨_, ⟨hc, rfl⟩, rfl⟩, (ih hc).mpr h⟩

/-- The count is the length of the whole text, however it is cut into
chunks, and is returned exactly when it fits. -/
theorem boundedJsonSize_ok {value : Serialize V} {limit n : Nat} (hl : limit < 2 ^ 64) :
    boundedJsonSize value limit = .ok n ↔
      (jsonText value).length ≤ limit ∧ (jsonText value).length = n := by
  simp only [boundedJsonSize, bind_ok, pure_ok, JsonSize.foldlM_write hl (Nat.zero_le limit), Nat.zero_add,
    jsonText]
  refine ⟨fun h => ?_, fun h => ⟨_, ⟨h.1, rfl⟩, h.2⟩⟩
  obtain ⟨_, ⟨h, hr⟩, hn⟩ := h
  rw [← hr] at hn
  exact ⟨h, hn⟩

/-- A field's value is no longer than the struct it is in. -/
theorem CompactJson.field_le (hc : CompactJson V) {fields : List (String × Serialize V)}
    {name : String} {v : Serialize V} (h : (name, v) ∈ fields) :
    (jsonText v).length ≤ (jsonText (.struct fields)).length := by
  have hm := List.singleton_sublist.mpr (List.mem_map_of_mem
    (f := fun f => jsonText (V := V) (.str f.1) ++ [0x3A] ++ jsonText f.2) h)
  have hle := length_intercalate_le (s := [0x2C]) hm
  simp only [List.intercalate_singleton, List.length_append] at hle
  rw [hc.struct]
  simp only [List.length_append]
  omega

/-- Leaving items out does not lengthen a sequence. -/
theorem CompactJson.seq_mono (hc : CompactJson V) {items more : List (Serialize V)}
    (h : items.Sublist more) : (jsonText (.seq items)).length ≤ (jsonText (.seq more)).length := by
  have hle := length_intercalate_le (s := [0x2C]) (h.map jsonText)
  rw [hc.seq, hc.seq]
  simp only [List.length_append]
  omega

end ProviderSdk
