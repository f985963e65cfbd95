/-
The encodings of the targeted state messages in the proto3 wire format,
which is what `prost` computes.

Scalars at their default are left out, messages and members of a `oneof` are
written whenever they are there.
-/
import ProviderSdk.Lib.PrefixCode
import ProviderSdk.TargetedState

namespace ProviderSdk.Proto3

open V1

/-- Seven bits a byte, the low ones first; ten bytes hold 64 bits. -/
def varint (n : Nat) (bytes : Nat := 10) : List UInt8 :=
  match bytes with
  | 0 => []
  | bytes + 1 =>
    if n < 128 then [UInt8.ofNat n] else UInt8.ofNat (n % 128 + 128) :: varint (n / 128) bytes

/-- A field of a length and that many bytes. -/
def delimited (tag : Nat) (content : List UInt8) : List UInt8 :=
  varint (tag * 8 + 2) ++ varint content.length ++ content

def bytes (tag : Nat) (value : List UInt8) : List UInt8 := if value = [] then [] else delimited tag value

def utf8 (value : String) : List UInt8 := value.toList.flatMap String.utf8EncodeChar

def string (tag : Nat) (value : String) : List UInt8 := bytes tag (utf8 value)

def number (tag : Nat) (value : Nat) : List UInt8 := if value = 0 then [] else varint (tag * 8) ++ varint value

/-- `int32` and `int64` are written in two's complement. -/
def int (tag : Nat) (value : Int) : List UInt8 := number tag (value % 2 ^ 64).toNat

/-- `sint64` folds the sign into the lowest bit. -/
def zigzag (value : Int) : Nat := if 0 ≤ value then (2 * value).toNat else (-2 * value - 1).toNat

def message {α : Type} (tag : Nat) (encode : α → List UInt8) (value : Option α) : List UInt8 :=
  value.elim [] fun value => delimited tag (encode value)

def repeated {α : Type} (tag : Nat) (encode : α → List UInt8) (values : List α) : List UInt8 :=
  values.flatMap fun value => delimited tag (encode value)

def key (k : Key) : List UInt8 := string 1 k.namespaceName ++ bytes 2 k.value

def term (t : Term) : List UInt8 := string 1 t.namespaceName ++ string 2 t.name

def stateField (f : StateField) : List UInt8 := message 1 term f.field ++ message 2 term f.unit

def subjectReference (s : SubjectReference) : List UInt8 :=
  match s.subject with
  | none => []
  | some (.providerItemKey k) => delimited 1 (key k)
  | some (.catalogRelationKey k) => delimited 2 (key k)

def value (v : Value) : List UInt8 :=
  match v.value with
  | none => []
  | some (.boolean b) => varint 8 ++ varint b.toNat
  | some (.integer n) => varint 16 ++ varint (zigzag n.toInt)
  | some (.decimal d) => delimited 3 (string 1 d.value)
  | some (.text s) => delimited 4 (utf8 s)
  | some (.bytes b) => delimited 5 b
  | some (.timestamp t) => delimited 6 (number 1 (zigzag t.milliseconds.toInt))

def intent (i : TargetedStateWriteIntent) : List UInt8 :=
  message 1 stateField i.field ++
    match i.operation with
    | none => []
    | some (.set v) => delimited 2 (value v)
    | some .clear => delimited 3 []

def writeRequest (r : WriteTargetedStateRequest) : List UInt8 :=
  bytes 1 r.operationId ++ message 2 key r.sourceKey ++ message 3 subjectReference r.subject ++
    bytes 4 r.idempotencyKey ++ int 5 r.expectedMembership.toInt ++ bytes 6 r.precondition ++
    number 7 r.allowCreateMembership.toNat ++ repeated 8 intent r.intents ++
    number 9 r.maximumReceiptBytes.toNat ++ number 10 r.maximumResponseBytes.toNat

def duration (d : Duration) : List UInt8 := int 1 d.seconds.toInt ++ int 2 d.nanos.toInt

def retryAdvice (r : RetryAdvice) : List UInt8 := int 1 r.disposition.toInt ++ message 2 duration r.after

def fieldProblem (p : FieldProblem) : List UInt8 := string 1 p.path ++ string 2 p.code ++ string 3 p.message

def operationFailure (e : OperationFailure) : List UInt8 :=
  int 1 e.category.toInt ++ string 2 e.code ++ string 3 e.safeMessage ++ message 4 retryAdvice e.retry ++
    repeated 5 fieldProblem e.fieldProblems

def fieldEffect (e : TargetedStateWriteFieldEffect) : List UInt8 :=
  message 1 stateField e.field ++ int 2 e.effect.toInt ++ message 3 value e.value

def writeResponse (r : WriteTargetedStateResponse) : List UInt8 :=
  int 1 r.status.toInt ++ int 2 r.certainty.toInt ++ int 3 r.retryDisposition.toInt ++
    int 4 r.membershipEffect.toInt ++ repeated 5 fieldEffect r.fieldEffects ++ bytes 6 r.providerRevision ++
    bytes 7 r.successorPrecondition ++ bytes 8 r.receipt ++ message 9 operationFailure r.error

instance : Prost where
  encodeToVec := stateField
  requestLen r := (writeRequest r).length
  responseLen r := (writeResponse r).length

/-! ## Subjects told apart -/

theorem varint_last {n b : Nat} (h : n < 128) : varint n (b + 1) = [UInt8.ofNat n] := by
  rw [varint, if_pos h]

theorem varint_more {n b : Nat} (h : ¬ n < 128) :
    varint n (b + 1) = UInt8.ofNat (n % 128 + 128) :: varint (n / 128) b := by
  rw [varint, if_neg h]

theorem div_lt_pow {n b : Nat} (h : n < 128 ^ (b + 1)) : n / 128 < 128 ^ b :=
  Nat.div_lt_of_lt_mul (by rw [← Nat.pow_succ']; exact h)

/-- Bytes to spare do not change a varint. -/
theorem varint_bytes {b b' n : Nat} (h : n < 128 ^ (b + 1)) (h' : n < 128 ^ (b' + 1)) :
    varint n (b + 1) = varint n (b' + 1) := by
  induction b generalizing b' n with
  | zero => rw [varint_last (by omega), varint_last (by omega)]
  | succ b ih =>
    by_cases hn : n < 128
    · rw [varint_last hn, varint_last hn]
    · cases b' with
      | zero => exact absurd (by omega) hn
      | succ b' => rw [varint_more hn, varint_more hn, ih (div_lt_pow h) (div_lt_pow h')]

theorem ofNat_inj {x y : Nat} (hx : x < 256) (hy : y < 256) (h : UInt8.ofNat x = UInt8.ofNat y) : x = y := by
  have h := congrArg UInt8.toNat h
  rwa [UInt8.toNat_ofNat', UInt8.toNat_ofNat', Nat.mod_eq_of_lt hx, Nat.mod_eq_of_lt hy] at h

/-- The last byte of a varint is the only one below 128. -/
theorem varint_prefix {b n m : Nat} (hn : n < 128 ^ (b + 1)) (hm : m < 128 ^ (b + 1))
    (h : varint n (b + 1) <+: varint m (b + 1)) : n = m := by
  induction b generalizing n m with
  | zero =>
    rw [varint_last (by omega), varint_last (by omega), List.cons_prefix_cons] at h
    exact ofNat_inj (by omega) (by omega) h.1
  | succ b ih =>
    by_cases hn' : n < 128 <;> by_cases hm' : m < 128
    · rw [varint_last hn', varint_last hm', List.cons_prefix_cons] at h
      exact ofNat_inj (by omega) (by omega) h.1
    · rw [varint_last hn', varint_more hm', List.cons_prefix_cons] at h
      have := ofNat_inj (by omega) (by omega) h.1
      omega
    · rw [varint_more hn', varint_last hm', List.cons_prefix_cons] at h
      have := ofNat_inj (by omega) (by omega) h.1
      omega
    · rw [varint_more hn', varint_more hm', List.cons_prefix_cons] at h
      have hmod := ofNat_inj (by omega) (by omega) h.1
      have hdiv := ih (div_lt_pow hn) (div_lt_pow hm) h.2
      omega

/-- A varint of as many bytes as it takes, which are ten at most for any
length there is. -/
def longVarint (n : Nat) : List UInt8 := varint n (n + 1)

theorem lt_pow_self {n b : Nat} (h : n ≤ b) : n < 128 ^ (b + 1) :=
  Nat.lt_of_le_of_lt h (Nat.lt_trans (Nat.lt_succ_self b) (Nat.lt_pow_self (by decide)))

theorem longVarint_eq {n : Nat} (h : n < 2 ^ 64) : longVarint n = varint n :=
  varint_bytes (lt_pow_self (Nat.le_refl n)) (Nat.lt_trans h (by decide))

theorem longVarint_prefixCode : PrefixCode longVarint := by
  intro n m h
  have hn := lt_pow_self (Nat.le_max_left n m)
  have hm := lt_pow_self (Nat.le_max_right n m)
  rw [longVarint, longVarint, varint_bytes (lt_pow_self (Nat.le_refl n)) hn,
    varint_bytes (lt_pow_self (Nat.le_refl m)) hm] at h
  exact varint_prefix hn hm h

/-- As `delimited`, for a content of any length. -/
def longDelimited (tag : Nat) (content : List UInt8) : List UInt8 :=
  varint (tag * 8 + 2) ++ (longVarint content.length ++ content)

theorem longDelimited_eq {tag : Nat} {content : List UInt8} (h : content.length < 2 ^ 64) :
    longDelimited tag content = delimited tag content := by
  rw [longDelimited, longVarint_eq h, delimited, List.append_assoc]

theorem longDelimited_prefixCode (tag : Nat) : PrefixCode (longDelimited tag) :=
  longVarint_prefixCode.sized.opened _

def longBytes (tag : Nat) (value : List UInt8) : List UInt8 :=
  (if value = [] then none else some value).elim [] (longDelimited tag)

def longKey (k : Key) : List UInt8 := longBytes 1 (Text.utf8 k.namespaceName) ++ longBytes 2 k.value

/-- As `subjectReference`, for keys of any length. -/
def longSubjectReference (s : SubjectReference) : List UInt8 :=
  match s.subject with
  | none => []
  | some (.providerItemKey k) => longDelimited 1 (longKey k)
  | some (.catalogRelationKey k) => longDelimited 2 (longKey k)

theorem longBytes_eq {tag : Nat} {value : List UInt8} (h : (longBytes tag value).length < 2 ^ 64) :
    longBytes tag value = bytes tag value := by
  by_cases hv : value = []
  · simp [longBytes, bytes, hv]
  · have he : longBytes tag value = longDelimited tag value := by simp [longBytes, hv]
    have hlen : value.length < 2 ^ 64 := by
      rw [he, longDelimited, List.length_append, List.length_append] at h
      omega
    rw [he, longDelimited_eq hlen, bytes, if_neg hv]

/-- A subject whose encoding fits in memory is encoded as it is by `prost`. -/
theorem longSubjectReference_eq {s : SubjectReference} (h : (longSubjectReference s).length < 2 ^ 64) :
    longSubjectReference s = subjectReference s := by
  have hword : ∀ tag k, (longDelimited tag (longKey k)).length < 2 ^ 64 →
      longDelimited tag (longKey k) = delimited tag (key k) := fun tag k h => by
    rw [longDelimited, List.length_append, List.length_append] at h
    have hk : (longKey k).length < 2 ^ 64 := by omega
    have he : longKey k = key k := by
      rw [longKey, List.length_append] at hk
      rw [longKey, longBytes_eq (by omega), longBytes_eq (by omega)]
      rfl
    rw [longDelimited_eq hk, he]
  obtain ⟨subject⟩ := s
  cases subject with
  | none => rfl
  | some k =>
    cases k with
    | providerItemKey k => exact hword 1 k h
    | catalogRelationKey k => exact hword 2 k h

theorem longDelimited_head (tag : Nat) (content : List UInt8) :
    (longDelimited tag content).head? = (varint (tag * 8 + 2)).head? := by
  rw [longDelimited, List.head?_append, varint]
  split <;> rfl

/-- Bytes are told from the fields that follow them. -/
theorem longBytes_inj {tag : Nat} {v v' s t : List UInt8} (hs : s.head? ≠ (varint (tag * 8 + 2)).head?)
    (ht : t.head? ≠ (varint (tag * 8 + 2)).head?) (h : longBytes tag v ++ s = longBytes tag v' ++ t) :
    v = v' ∧ s = t := by
  obtain ⟨mark, hmark⟩ : ∃ mark, (varint (tag * 8 + 2)).head? = some mark := by
    rw [varint]
    split <;> exact ⟨_, rfl⟩
  rw [hmark] at hs ht
  have hword : ∀ content, (longDelimited tag content).head? = some mark := fun content =>
    (longDelimited_head tag content).trans hmark
  obtain ⟨ho, hst⟩ := (longDelimited_prefixCode tag).optional hword hs ht h
  refine ⟨?_, hst⟩
  by_cases hv : v = [] <;> by_cases hv' : v' = [] <;> simp_all

theorem longKey_injective : Function.Injective longKey := by
  intro k k' h
  have hnext : ∀ value, (longBytes 2 value).head? ≠ (varint (1 * 8 + 2)).head? := fun value => by
    unfold longBytes
    split
    · decide
    · rw [Option.elim, longDelimited_head]
      decide
  obtain ⟨hnamespace, hvalue⟩ := longBytes_inj (hnext _) (hnext _) h
  have hvalue : longBytes 2 k.value ++ [] = longBytes 2 k'.value ++ [] := by rw [hvalue]
  obtain ⟨hvalue, -⟩ := longBytes_inj (by decide) (by decide) hvalue
  have hnamespace := Text.utf8_injective hnamespace
  cases k
  cases k'
  simp_all

/-- The byte an encoded subject starts with. -/
def subjectMark : SubjectKey → UInt8
  | .providerItemKey _ => 10
  | .catalogRelationKey _ => 18

theorem longSubjectReference_head (s : SubjectReference) :
    (longSubjectReference s).head? = s.subject.map subjectMark := by
  unfold longSubjectReference
  split <;> rename_i hs <;> rw [hs] <;> rfl

/-- No two subjects have one encoding. -/
theorem longSubjectReference_injective : Function.Injective longSubjectReference := by
  intro s s' h
  have hh : (longSubjectReference s).head? = (longSubjectReference s').head? := by rw [h]
  rw [longSubjectReference_head, longSubjectReference_head] at hh
  obtain ⟨o⟩ := s
  obtain ⟨o'⟩ := s'
  cases o with
  | none =>
    cases o' with
    | none => rfl
    | some k' => cases hh
  | some k =>
    cases o' with
    | none => cases hh
    | some k' =>
      cases k <;> cases k'
      · rw [longKey_injective ((longDelimited_prefixCode 1).injective h)]
      · simp [subjectMark] at hh
      · simp [subjectMark] at hh
      · rw [longKey_injective ((longDelimited_prefixCode 2).injective h)]

/-! ## Answers to a read -/

def fieldObservation (o : TargetedStateFieldObservation) : List UInt8 :=
  message 1 stateField o.field ++ int 2 o.presence.toInt ++ message 3 value o.value

def writeCausation (c : TargetedStateWriteCausation) : List UInt8 :=
  bytes 1 c.idempotencyKey ++ bytes 2 c.receipt ++ bytes 3 c.providerRevision

def readMatched (m : TargetedStateReadMatched) : List UInt8 :=
  int 1 m.membership.toInt ++ repeated 2 fieldObservation m.fields ++ bytes 3 m.providerRevision ++
    number 4 (zigzag m.observedTimeMilliseconds.toInt) ++
    m.expiresTimeMilliseconds.elim [] (fun n => varint (5 * 8) ++ varint (zigzag n.toInt)) ++
    bytes 6 m.precondition ++ message 7 writeCausation m.writeCausation

def readResponse (r : ReadTargetedStateResponse) : List UInt8 :=
  match r.outcome with
  | none => []
  | some (.matched m) => delimited 1 (readMatched m)
  | some .unsupported => delimited 2 []
  | some .notFound => delimited 3 []
  | some (.ambiguous a) => delimited 4 (repeated 1 subjectReference a.candidates)
  | some (.indeterminate i) => delimited 5 (message 1 operationFailure i.error)

end ProviderSdk.Proto3
