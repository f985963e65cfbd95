/-
The budget on serialized JSON (`bounded_json_size` in `completion.rs`), chunk
by chunk.

`to_writer` hands its output to the writer with `write_all`, in order, and
stops at the first error. What is counted is the length of the text and does
not depend on where the text is cut (`JsonSize.feed_result`); what is
consumed ends with the chunk that overruns the budget.
-/
import ProviderSdk.Serde

namespace ProviderSdk

open Checks Text

/-- `write_all` on the writer, which takes whatever it is given whole; there
is nothing to write of an empty chunk. -/
def JsonSize.writeAll (self : JsonSize) (chunk : List UInt8) : Except JsonError JsonSize :=
  if chunk.isEmpty then pure self else self.write chunk

/-- What becomes of chunks handed to a writer: how many of them it is handed,
and the writer they leave, or the error they stop at. -/
structure Feed where
  consumed : Nat
  result : Except JsonError JsonSize

/-- `to_writer`, as far as the writer can tell. -/
def JsonSize.feed (self : JsonSize) : List (List UInt8) → Feed
  | [] => ⟨0, .ok self⟩
  | chunk :: chunks =>
    match self.writeAll chunk with
    | .error e => ⟨1, .error e⟩
    | .ok size => ⟨(size.feed chunks).consumed + 1, (size.feed chunks).result⟩

/-- `bounded_json_size` of a value that is written in these chunks. -/
def boundedSize (chunks : List (List UInt8)) (limit : Nat) : Except JsonError Nat := do
  let size ← (JsonSize.feed ⟨0, limit⟩ chunks).result
  pure size.bytes

variable {n limit : Nat} {chunk : List UInt8} {chunks : List (List UInt8)}

/-- A writer within its budget writes a chunk where the budget allows it. -/
theorem JsonSize.writeAll_eq (hl : limit < 2 ^ 64) (hn : n ≤ limit) :
    (⟨n, limit⟩ : JsonSize).writeAll chunk =
      if n + chunk.length ≤ limit then .ok ⟨n + chunk.length, limit⟩ else .error .exceedsLimits := by
  have hwrite : (⟨n, limit⟩ : JsonSize).write chunk =
      if n + chunk.length ≤ limit then .ok ⟨n + chunk.length, limit⟩ else .error .exceedsLimits := by
    by_cases hc : n + chunk.length ≤ limit
    · rw [if_pos hc, write, bind_ok]
      exact ⟨_, okOr_ok.mpr ((checkedAdd_filter_eq_some hl).mpr ⟨hc, rfl⟩), rfl⟩
    · have hnone : (checkedAdd n chunk.length).filter (· ≤ limit) = none := by
        rw [Option.eq_none_iff_forall_ne_some]
        intro size h
        exact hc ((checkedAdd_filter_eq_some hl).mp h).1
      rw [if_neg hc, write, hnone]
      rfl
  unfold writeAll
  split
  · rename_i hempty
    rw [List.isEmpty_iff.mp hempty, List.length_nil, Nat.add_zero, if_pos hn]
    rfl
  · exact hwrite

/-- What the first chunk does to a writer within its budget. -/
theorem JsonSize.feed_cons (hl : limit < 2 ^ 64) (hn : n ≤ limit) :
    (⟨n, limit⟩ : JsonSize).feed (chunk :: chunks) =
      if n + chunk.length ≤ limit then
        ⟨((⟨n + chunk.length, limit⟩ : JsonSize).feed chunks).consumed + 1,
          ((⟨n + chunk.length, limit⟩ : JsonSize).feed chunks).result⟩
      else ⟨1, .error .exceedsLimits⟩ := by
  by_cases hc : n + chunk.length ≤ limit
  · rw [feed, writeAll_eq hl hn, if_pos hc, if_pos hc]
  · rw [feed, writeAll_eq hl hn, if_neg hc, if_neg hc]

/-- The writer counts the bytes it is handed, and gives up where they exceed
its budget. -/
theorem JsonSize.feed_result (hl : limit < 2 ^ 64) (hn : n ≤ limit) :
    ((⟨n, limit⟩ : JsonSize).feed chunks).result =
      if n + chunks.flatten.length ≤ limit then .ok ⟨n + chunks.flatten.length, limit⟩
      else .error .exceedsLimits := by
  induction chunks generalizing n with
  | nil =>
    rw [List.flatten_nil, List.length_nil, Nat.add_zero, if_pos hn]
    rfl
  | cons chunk chunks ih =>
    rw [feed_cons hl hn, List.flatten_cons, List.length_append, ← Nat.add_assoc]
    by_cases hc : n + chunk.length ≤ limit
    · rw [if_pos hc, ih hc]
    · have htotal : ¬ n + chunk.length + chunks.flatten.length ≤ limit := by omega
      rw [if_neg hc, if_neg htotal]

/-- Where the text exceeds the budget, the last chunk consumed is the first
that overruns it. -/
theorem JsonSize.feed_overrun (hl : limit < 2 ^ 64) (hn : n ≤ limit) (h : limit < n + chunks.flatten.length) :
    ∃ pre chunk post, chunks = pre ++ chunk :: post ∧ n + pre.flatten.length ≤ limit ∧
      limit < n + pre.flatten.length + chunk.length ∧
      ((⟨n, limit⟩ : JsonSize).feed chunks).consumed = pre.length + 1 := by
  induction chunks generalizing n with
  | nil =>
    rw [List.flatten_nil, List.length_nil] at h
    omega
  | cons chunk chunks ih =>
    rw [feed_cons hl hn]
    rw [List.flatten_cons, List.length_append, ← Nat.add_assoc] at h
    by_cases hc : n + chunk.length ≤ limit
    · obtain ⟨pre, last, post, he, hpre, hlast, hconsumed⟩ := ih hc h
      refine ⟨chunk :: pre, last, post, by rw [he, List.cons_append], ?_, ?_, ?_⟩
      · rw [List.flatten_cons, List.length_append]
        omega
      · rw [List.flatten_cons, List.length_append]
        omega
      · rw [if_pos hc, hconsumed, List.length_cons]
    · refine ⟨[], chunk, chunks, rfl, hn, ?_, ?_⟩
      · rw [List.flatten_nil, List.length_nil]
        omega
      · rw [if_neg hc, List.length_nil]

theorem boundedSize_eq (hl : limit < 2 ^ 64) :
    boundedSize chunks limit =
      if chunks.flatten.length ≤ limit then .ok chunks.flatten.length else .error .exceedsLimits := by
  rw [boundedSize, JsonSize.feed_result hl (Nat.zero_le _), Nat.zero_add]
  by_cases h : chunks.flatten.length ≤ limit
  · rw [if_pos h, if_pos h]
    rfl
  · rw [if_neg h, if_neg h]
    rfl

theorem boundedSize_ok (hl : limit < 2 ^ 64) :
    boundedSize chunks limit = .ok n ↔ chunks.flatten.length ≤ limit ∧ chunks.flatten.length = n := by
  rw [boundedSize_eq hl]
  by_cases h : chunks.flatten.length ≤ limit
  · rw [if_pos h, Except.ok.injEq, and_iff_right h]
  · rw [if_neg h]
    refine ⟨fun hn => ?_, fun hn => absurd hn.1 h⟩
    cases hn

/-- What a value serializes to is counted as its chunks are. -/
theorem boundedJsonSize_eq {V : Type} [SerdeJson V] {value : Serialize V} (hl : limit < 2 ^ 64) :
    boundedJsonSize value limit = boundedSize (SerdeJson.toWriter value) limit := by
  have hok : ∀ n, boundedJsonSize value limit = .ok n ↔ boundedSize (SerdeJson.toWriter value) limit = .ok n := by
    intro n
    rw [boundedJsonSize_ok hl, boundedSize_ok hl, jsonText]
  cases ha : boundedJsonSize value limit with
  | ok n => exact ((hok n).mp ha).symm
  | error e =>
    cases hb : boundedSize (SerdeJson.toWriter value) limit with
    | ok n =>
      rw [(hok n).mpr hb] at ha
      cases ha
    | error e' =>
      cases e
      cases e'
      rfl

/-- **The budget is on the text.** Whatever chunks a text arrives in, its
length is returned exactly when it is within the limit; the count at no time
wraps; and where it is not within the limit, the chunk that first overruns it
is the last one consumed. -/
theorem boundedSize_budget (limit : UInt64) (chunks : List (List UInt8)) :
    (∀ n, boundedSize chunks limit.toNat = .ok n ↔ chunks.flatten.length = n ∧ n ≤ limit.toNat) ∧
      (∀ chunks', chunks'.flatten = chunks.flatten →
        boundedSize chunks' limit.toNat = boundedSize chunks limit.toNat) ∧
      (∀ pre size, pre <+: chunks → (JsonSize.feed ⟨0, limit.toNat⟩ pre).result = .ok size →
        size.bytes = pre.flatten.length ∧ size.bytes < 2 ^ 64) ∧
      (limit.toNat < chunks.flatten.length →
        ∃ pre chunk post, chunks = pre ++ chunk :: post ∧ pre.flatten.length ≤ limit.toNat ∧
          limit.toNat < (pre ++ [chunk]).flatten.length ∧
          (JsonSize.feed ⟨0, limit.toNat⟩ chunks).consumed = (pre ++ [chunk]).length) ∧
      ∀ (V : Type) [SerdeJson V] (value : Serialize V), SerdeJson.toWriter value = chunks →
        boundedJsonSize value limit.toNat = boundedSize chunks limit.toNat := by
  have hl : limit.toNat < 2 ^ 64 := limit.toNat_lt
  refine ⟨fun n => ?_, fun chunks' h => ?_, fun pre size _ h => ?_, fun h => ?_, fun V _ value h => ?_⟩
  · rw [boundedSize_ok hl]
    exact ⟨fun hn => ⟨hn.2, hn.2 ▸ hn.1⟩, fun hn => ⟨hn.1 ▸ hn.2, hn.1⟩⟩
  · rw [boundedSize_eq hl, boundedSize_eq hl, h]
  · rw [JsonSize.feed_result hl (Nat.zero_le _), Nat.zero_add] at h
    by_cases hp : pre.flatten.length ≤ limit.toNat
    · rw [if_pos hp] at h
      cases h
      exact ⟨rfl, Nat.lt_of_le_of_lt hp hl⟩
    · rw [if_neg hp] at h
      cases h
  · have h0 : limit.toNat < 0 + chunks.flatten.length := by rwa [Nat.zero_add]
    obtain ⟨pre, chunk, post, he, hpre, hlast, hconsumed⟩ := JsonSize.feed_overrun hl (Nat.zero_le _) h0
    rw [Nat.zero_add] at hpre hlast
    refine ⟨pre, chunk, post, he, hpre, ?_, ?_⟩
    · rw [List.flatten_append, List.length_append, List.flatten_singleton]
      exact hlast
    · rw [hconsumed, List.length_append, List.length_singleton]
  · rw [boundedJsonSize_eq hl, h]

end ProviderSdk
