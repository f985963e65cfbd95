/-
A JSON crate that keeps `CompactJson`, over values of two shapes: a string
of the letter `a`, and `null` inside a number of arrays. On these it writes
and reads what `serde_json` does, down to the recursion limit of
`from_slice`.
-/
import ProviderSdk.Serde

namespace ProviderSdk

open Checks Text

inductive SampleJson where
  | text (length : Nat)
  | nested (depth : Nat)
  deriving DecidableEq

namespace SampleJson

def depth : SampleJson → Nat
  | .text _ => 0
  | .nested depth => depth

def print : SampleJson → List UInt8
  | .text length => [0x22] ++ List.replicate length 0x61 ++ [0x22]
  | .nested depth => List.replicate depth 0x5B ++ [0x6E, 0x75, 0x6C, 0x6C] ++ List.replicate depth 0x5D

/-- The length of a text gives away the one value of each shape it can be. -/
def parse (bytes : List UInt8) : Option SampleJson :=
  if (text (bytes.length - 2)).print = bytes then some (.text (bytes.length - 2))
  else if (nested ((bytes.length - 4) / 2)).print = bytes ∧ (bytes.length - 4) / 2 < 128 then
    some (.nested ((bytes.length - 4) / 2))
  else none

def printStr (s : String) : List UInt8 := [0x22] ++ (utf8 s).flatMap escapeByte ++ [0x22]

mutual

def printSerialize : Serialize SampleJson → List UInt8
  | .value v => v.print
  | .null => [0x6E, 0x75, 0x6C, 0x6C]
  | .str s => printStr s
  | .int n => utf8 (toString n)
  | .seq items => [0x5B] ++ [0x2C].intercalate (printItems items) ++ [0x5D]
  | .struct fields => [0x7B] ++ [0x2C].intercalate (printFields fields) ++ [0x7D]

def printItems : List (Serialize SampleJson) → List (List UInt8)
  | [] => []
  | item :: items => printSerialize item :: printItems items

def printField : String × Serialize SampleJson → List UInt8
  | (name, v) => printStr name ++ [0x3A] ++ printSerialize v

def printFields : List (String × Serialize SampleJson) → List (List UInt8)
  | [] => []
  | field :: fields => printField field :: printFields fields

end

instance : SerdeJson SampleJson where
  toWriter value := [printSerialize value]
  toString := print
  fromSlice := parse
  depth := depth

theorem jsonText_eq (value : Serialize SampleJson) : jsonText value = printSerialize value := by
  simp [jsonText, SerdeJson.toWriter]

theorem compact : CompactJson SampleJson where
  seq items := by
    have h : ∀ items : List (Serialize SampleJson), printItems items = items.map jsonText := fun items => by
      induction items with
      | nil => rfl
      | cons item items ih => rw [printItems, ih, List.map_cons, jsonText_eq]
    rw [jsonText_eq, printSerialize, h]
  struct fields := by
    have h : ∀ fields : List (String × Serialize SampleJson), printFields fields =
        fields.map fun f => jsonText (V := SampleJson) (.str f.1) ++ [0x3A] ++ jsonText f.2 := fun fields => by
      induction fields with
      | nil => rfl
      | cons field fields ih => rw [printFields, ih, List.map_cons, printField, jsonText_eq, jsonText_eq,
          printSerialize]
    rw [jsonText_eq, printSerialize, h]
  toString v := by rw [jsonText_eq, printSerialize]; rfl

theorem scalars : ScalarJson SampleJson where
  str s := by rw [jsonText_eq, printSerialize, printStr]
  int n := by rw [jsonText_eq, printSerialize]
  null := ⟨.nested 0, by rw [jsonText_eq, printSerialize]; rfl⟩

@[simp] theorem length_print_text (n : Nat) : (text n).print.length = n + 2 := by
  simp [print]

@[simp] theorem length_print_nested (d : Nat) : (nested d).print.length = 2 * d + 4 := by
  simp [print]; omega

theorem print_ne (n d : Nat) : (text n).print ≠ (nested d).print := by
  cases d <;> simp [print, List.replicate_succ]

/-- `from_slice` reads back what `to_string` wrote, unless the value is
nested too deep. -/
theorem parse_print (v : SampleJson) : parse v.print = if v.depth < 128 then some v else none := by
  cases v with
  | text n => simp [parse, depth]
  | nested d =>
    have hd : (2 * d + 4 - 4) / 2 = d := by omega
    rw [parse, length_print_nested, if_neg (print_ne _ _), hd]
    by_cases hlt : d < 128 <;> simp [depth, hlt]

theorem depth_of_parse {bytes : List UInt8} {v : SampleJson} (h : parse bytes = some v) : v.depth < 128 := by
  unfold parse at h
  split at h
  · cases h
    exact Nat.zero_lt_succ _
  · split at h
    · rename_i hd
      cases h
      exact hd.2
    · cases h

theorem recursionLimit : RecursionLimit SampleJson where
  toString v := compact.toString v
  shallow v h := (parse_print v).trans (if_pos h)
  deep v h := (parse_print v).trans (if_neg (Nat.not_lt.mpr h))

theorem null : NullJson SampleJson := by
  refine ⟨.nested 0, ?_, (parse_print (nested 0)).trans (if_pos (by decide))⟩
  rw [jsonText_eq, printSerialize]
  rfl

end SampleJson

end ProviderSdk
