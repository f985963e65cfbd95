/-
The validators of single messages (`validation.rs`, `mapping.rs`).

Each is followed by what it accepts. An absent message where one is required
is an error of its own, so those predicates say `∃ m, x = some m ∧ ..`.
-/
import ProviderSdk.Lib.Checks
import ProviderSdk.Lib.Collections
import ProviderSdk.Lib.Text
import ProviderSdk.V1

namespace ProviderSdk

open Checks Text V1

inductive ValidationError where
  | missing (what : String)
  | empty (what : String)
  | invalid (what : String)
  | invalidSequence (expected actual : UInt64)
  | eventAfterTerminal
  | missingTerminal
  | targetedStateFieldCount
  | targetedStateFieldMismatch
  | targetedStateResponseTooLarge (actual : Nat) (maximum : UInt64)
  | targetedStateWriteRequestTooLarge (actual : Nat) (maximum : UInt64)
  | targetedStateWriteFieldCount
  | targetedStateWriteFieldMismatch
  | targetedStateWriteResponseTooLarge (actual : Nat) (maximum : UInt64)
  | targetedStateWriteReceiptTooLarge (actual : Nat) (maximum : UInt64)
  | insufficientCandidates
  | errorWithPayload
  | duplicate (what : String)
  | unknownAccount
  deriving DecidableEq

/-! ## Texts, keys and terms -/

def nonEmptyText (value field : String) : Except ValidationError Unit :=
  if value = "" then .error (.empty field)
  else if hasControl value then .error (.invalid field)
  else .ok ()

/-- A text `non_empty_text` accepts. -/
def TextOk (value : String) : Prop := value ≠ "" ∧ hasControl value = false

@[simp] theorem nonEmptyText_ok {value field : String} {u : Unit} :
    nonEmptyText value field = .ok u ↔ TextOk value := by
  unfold nonEmptyText TextOk
  split
  · simp_all
  · split <;> simp_all

def key (key : Key) (field : String) : Except ValidationError Unit := do
  nonEmptyText key.namespaceName field
  reject key.value.isEmpty (.empty field)

def V1.Key.WellFormed (k : Key) : Prop := TextOk k.namespaceName ∧ k.value ≠ []

@[simp] theorem key_ok {k : Key} {field : String} {u : Unit} : key k field = .ok u ↔ k.WellFormed := by
  simp [key, Key.WellFormed]

def term (term : Term) (field : String) : Except ValidationError Unit := do
  nonEmptyText term.namespaceName field
  nonEmptyText term.name field

def V1.Term.WellFormed (t : Term) : Prop := TextOk t.namespaceName ∧ TextOk t.name

@[simp] theorem term_ok {t : Term} {field : String} {u : Unit} : term t field = .ok u ↔ t.WellFormed := by
  simp [term, Term.WellFormed]

/-! ## Failures -/

def adapterRetry (retry : RetryAdvice) : Except ValidationError Unit := do
  let disposition ← okOr (RetryDisposition.tryFrom retry.disposition)
    (.invalid "operation failure retry disposition")
  (match disposition, retry.after with
    | .notRetryable, none | .retryable, none => pure ()
    | .retryAfter, some after =>
      reject (¬ (0 ≤ after.seconds ∧ (0 ≤ after.nanos ∧ after.nanos < 1000000000) ∧
        (0 < after.seconds ∨ 0 < after.nanos))) (.invalid "operation failure retry advice")
    | .unspecified, _ => throw (.invalid "operation failure retry disposition")
    | _, _ => throw (.invalid "operation failure retry advice"))

/-- Advice to retry after a positive time, or without one. -/
inductive V1.RetryAdvice.WellFormed (retry : RetryAdvice) : Prop where
  | plain (h : RetryDisposition.tryFrom retry.disposition = some .notRetryable ∨
      RetryDisposition.tryFrom retry.disposition = some .retryable) (ha : retry.after = none)
  | after (after : Duration) (h : RetryDisposition.tryFrom retry.disposition = some .retryAfter)
      (ha : retry.after = some after) (hs : 0 ≤ after.seconds) (hn : 0 ≤ after.nanos ∧ after.nanos < 1000000000)
      (hp : 0 < after.seconds ∨ 0 < after.nanos)

theorem adapterRetry_ok {retry : RetryAdvice} {u : Unit} : adapterRetry retry = .ok u ↔ retry.WellFormed := by
  simp only [adapterRetry, bind_ok, okOr_ok]
  refine ⟨fun h => ?_, fun h => ?_⟩
  · obtain ⟨d, hd, h⟩ := h
    cases d <;> cases ha : retry.after <;> simp only [ha, throw_ok] at h
    · exact .plain (.inl hd) ha
    · exact .plain (.inr hd) ha
    · rw [reject_ok, not_not] at h
      exact .after _ hd ha h.1 h.2.1 h.2.2
  · cases h with
    | plain h ha =>
      rcases h with h | h
      · exact ⟨_, h, by rw [ha]; rfl⟩
      · exact ⟨_, h, by rw [ha]; rfl⟩
    | after after h ha hs hn hp => exact ⟨_, h, by rw [ha]; exact reject_ok.mpr (not_not.mpr ⟨hs, hn, hp⟩)⟩

def fieldProblem (problem : FieldProblem) : Except ValidationError Unit := do
  nonEmptyText problem.path "field problem path"
  nonEmptyText problem.code "field problem code"
  nonEmptyText problem.message "field problem message"

def adapterError (error : OperationFailure) : Except ValidationError Unit := do
  let category ← okOr (OperationFailureCategory.tryFrom error.category) (.invalid "operation failure category")
  reject (category = .unspecified) (.invalid "operation failure category")
  nonEmptyText error.code "adapter error code"
  nonEmptyText error.safeMessage "adapter safe message"
  reject (error.safeMessage.utf8ByteSize > 2048 ∨ hasControl error.safeMessage) (.invalid "adapter safe message")
  let retry ← okOr error.retry (.missing "operation failure retry advice")
  adapterRetry retry
  reject (error.fieldProblems.length > 64) (.invalid "operation failure field problems")
  error.fieldProblems.forM fieldProblem

structure V1.OperationFailure.WellFormed (error : OperationFailure) : Prop where
  category : ∃ c, OperationFailureCategory.tryFrom error.category = some c ∧ c ≠ .unspecified
  code : TextOk error.code
  safeMessage : TextOk error.safeMessage ∧ error.safeMessage.utf8ByteSize ≤ 2048
  retry : ∃ retry, error.retry = some retry ∧ retry.WellFormed
  fieldProblems : error.fieldProblems.length ≤ 64 ∧
    ∀ p ∈ error.fieldProblems, TextOk p.path ∧ TextOk p.code ∧ TextOk p.message

@[simp] theorem adapterError_ok {error : OperationFailure} {u : Unit} :
    adapterError error = .ok u ↔ error.WellFormed := by
  have hp : error.fieldProblems.forM fieldProblem = .ok u ↔
      ∀ p ∈ error.fieldProblems, TextOk p.path ∧ TextOk p.code ∧ TextOk p.message := by
    simp only [forM_ok, fieldProblem, bind_ok, nonEmptyText_ok, exists_const]
  simp only [adapterError, bind_ok, okOr_ok, reject_ok, nonEmptyText_ok, exists_const, not_or, Nat.not_lt,
    adapterRetry_ok, hp, gt_iff_lt]
  refine ⟨?_, fun h => ?_⟩
  · intro h
    obtain ⟨c, hc, hne, hcode, hmsg, ⟨hlen, _⟩, retry, hr, hw, hcount, hall⟩ := h
    exact ⟨⟨c, hc, hne⟩, hcode, ⟨hmsg, hlen⟩, ⟨retry, hr, hw⟩, hcount, hall⟩
  · obtain ⟨c, hc, hne⟩ := h.category
    obtain ⟨retry, hr, hw⟩ := h.retry
    have hclean : ¬ hasControl error.safeMessage = true := by simp [h.safeMessage.1.2]
    exact ⟨c, hc, hne, h.code, h.safeMessage.1, ⟨h.safeMessage.2, hclean⟩, retry, hr, hw, h.fieldProblems⟩

/-! ## Subjects, fields and values -/

def validateSubject (subject : SubjectReference) : Except ValidationError Unit := do
  let subject ← okOr subject.subject (.missing "subject reference")
  (match subject with
    | .providerItemKey value => key value "subject provider item key"
    | .catalogRelationKey value => key value "subject catalog relation key")

/-- The key of a subject of either kind. -/
def V1.SubjectKey.key : SubjectKey → Key
  | .providerItemKey value | .catalogRelationKey value => value

def V1.SubjectReference.WellFormed (s : SubjectReference) : Prop :=
  ∃ subject, s.subject = some subject ∧ subject.key.WellFormed

@[simp] theorem validateSubject_ok {s : SubjectReference} {u : Unit} :
    validateSubject s = .ok u ↔ s.WellFormed := by
  simp only [validateSubject, bind_ok, okOr_ok, SubjectReference.WellFormed]
  refine exists_congr fun subject => and_congr_right fun _ => ?_
  cases subject <;> exact key_ok

def validateStateField (field : StateField) : Except ValidationError Unit := do
  term (← okOr field.field (.missing "state field term")) "state field term"
  (match field.unit with
    | some unit => term unit "state unit"
    | none => pure ())

def V1.StateField.WellFormed (f : StateField) : Prop :=
  (∃ t, f.field = some t ∧ t.WellFormed) ∧ ∀ unit, f.unit = some unit → unit.WellFormed

@[simp] theorem validateStateField_ok {f : StateField} {u : Unit} :
    validateStateField f = .ok u ↔ f.WellFormed := by
  unfold validateStateField StateField.WellFormed
  cases f.field <;> cases f.unit <;> simp

def validateValue (value : Value) (field : String) : Except ValidationError Unit :=
  if value.value.isNone then .error (.missing field) else .ok ()

@[simp] theorem validateValue_ok {value : Value} {field : String} {u : Unit} :
    validateValue value field = .ok u ↔ value.value.isSome = true := by
  unfold validateValue
  cases value.value <;> simp

/-! ## Unit keys -/

structure MappingUnitKey where
  value : String
  namespaceName : String
  opaquePart : String

def maximumMappingUnitKeyBytes : Nat := 4096

/-- The test on the namespace: a letter, then letters, digits, `.`, `_` or
`-`, all ASCII. -/
def mappingNamespaceAccepted : List Char → Bool
  | [] => false
  | c :: cs => c.isAlpha && cs.all fun c => c.isAlphanum || ['.', '_', '-'].contains c

/-- A character the opaque part may not contain. -/
def mappingOpaqueRejected (c : Char) : Bool :=
  isControl c || isWhitespace c || [',', '<', '>', '[', ']'].contains c

def MappingUnitKey.parse (value : String) : Except ValidationError MappingUnitKey := do
  reject (trim value.toList).isEmpty (.empty "mapping unit key")
  reject (value.utf8ByteSize > maximumMappingUnitKeyBytes) (.invalid "mapping unit key")
  let (namespaceName, opaquePart) ← okOr (splitOnce [':', '/', '/'] value.toList) (.invalid "mapping unit key")
  reject (¬ mappingNamespaceAccepted namespaceName ∨ opaquePart.isEmpty ∨
    opaquePart.any mappingOpaqueRejected) (.invalid "mapping unit key")
  pure ⟨value, String.ofList namespaceName, String.ofList opaquePart⟩

def mappingUnitKey (value : String) : Except ValidationError Unit := do
  discard <| MappingUnitKey.parse value

end ProviderSdk
