/-
Attempts side by side.

A host has many attempts open at a time, of one operation or of several, and
their reports arrive in between one another. `decode_outcome` takes a message
for the operation and the attempt it names and for no other, so each record
is what its own messages make it, however they are interleaved with those of
other attempts (`Attempts.records_apart`).
-/
import ProviderSdk.AttemptRecord

namespace ProviderSdk

open Checks Register

variable {V ι : Type}

/-- What a message is about: the operation and the attempt it names. -/
def V1.CompletionAttemptOutcome.reportsOn (message : V1.CompletionAttemptOutcome) : Option (Identity × Identity) := do
  let operation ← (Identity.tryFrom (← message.operation)).toOption
  let attempt ← (Identity.tryFrom (← message.attempt)).toOption
  pure (operation, attempt)

/-- No message is decoded for an attempt it is not about. -/
theorem decodeOutcome_reportsOn {operation : PreparedOperation V} {attempt : Identity}
    {message : V1.CompletionAttemptOutcome} {o : AttemptOutcome} (h : decodeOutcome operation attempt message = .ok o) :
    message.reportsOn = some (operation.identity, attempt) := by
  simp only [decodeOutcome, bind_ok, required_ok, fromOperation_ok, pure_ok] at h
  obtain ⟨_, _, _, _, i, hi, op, hop, j, hj, att, hatt, _, _, _, _, _, _, _, hv, _⟩ := h
  obtain ⟨rfl, rfl, _⟩ := AttemptOutcome.validateFor_ok.mp hv
  simp [V1.CompletionAttemptOutcome.reportsOn, hi, hj, hop, hatt, Except.toOption]

/-- The attempts a host has open, no two of them the same. -/
structure Attempts (V ι : Type) where
  operation : ι → PreparedOperation V
  attempt : ι → Identity
  distinct : Function.Injective fun i => ((operation i).identity, attempt i)

namespace Attempts

variable (attempts : Attempts V ι)

/-- The messages about one of them. -/
def about (i : ι) (message : V1.CompletionAttemptOutcome) : Bool :=
  message.reportsOn = some ((attempts.operation i).identity, attempts.attempt i)

def recordReport (i : ι) (record : Option AttemptOutcome) (message : V1.CompletionAttemptOutcome) :
    Option AttemptOutcome :=
  ProviderSdk.recordReport (attempts.operation i) (attempts.attempt i) record message

/-- What is on record of each after the messages. -/
def records (messages : List V1.CompletionAttemptOutcome) : ι → Option AttemptOutcome :=
  feedAll attempts.recordReport (fun _ => none) messages

variable {attempts}

/-- A message about something else leaves a record as it is. -/
theorem recordReport_about (i : ι) (record : Option AttemptOutcome) (message : V1.CompletionAttemptOutcome)
    (h : attempts.about i message = false) : attempts.recordReport i record message = record := by
  rw [recordReport, ProviderSdk.recordReport]
  cases hd : decodeOutcome (attempts.operation i) (attempts.attempt i) message with
  | error e => rfl
  | ok o => exact absurd (decodeOutcome_reportsOn hd) (of_decide_eq_false h)

theorem about_unique {i j : ι} {message : V1.CompletionAttemptOutcome} (hi : attempts.about i message = true)
    (hj : attempts.about j message = true) : i = j :=
  attempts.distinct (Option.some.inj ((of_decide_eq_true hi).symm.trans (of_decide_eq_true hj)))

/-- **Attempts do not disturb each other.** Whatever messages arrive in
whatever order, each record is what its own messages make of it alone, a
message changes one record at most, and other interleavings of the same
messages leave the same records. -/
theorem records_apart (attempts : Attempts V ι) (messages : List V1.CompletionAttemptOutcome) :
    (∀ i, attempts.records messages i =
      recordReports (attempts.operation i) (attempts.attempt i) (messages.filter (attempts.about i))) ∧
    (∀ message i j, attempts.records (messages ++ [message]) i ≠ attempts.records messages i →
      attempts.records (messages ++ [message]) j ≠ attempts.records messages j → i = j) ∧
    ∀ messages', (∀ i, messages.filter (attempts.about i) = messages'.filter (attempts.about i)) →
      attempts.records messages = attempts.records messages' := by
  refine ⟨fun i => feedAll_filter recordReport_about, fun message i j hi hj => ?_, fun messages' hsame => ?_⟩
  · have habout : ∀ i, attempts.records (messages ++ [message]) i ≠ attempts.records messages i →
        attempts.about i message = true := by
      intro i hi
      refine Bool.eq_true_of_not_eq_false fun ha => hi ?_
      rw [records, records, feedAll_apply, feedAll_apply, List.foldl_concat]
      exact recordReport_about i _ message ha
    exact about_unique (habout i hi) (habout j hj)
  · exact feedAll_interleaved recordReport_about hsame

end Attempts

def retryIdentity : Identity := ⟨.sample, "retry", by decide⟩

/-- Two attempts of one operation, the second a retry. -/
def sampleAttempts : Attempts Unit Bool where
  operation _ := sampleOperation
  attempt retry := if retry then retryIdentity else .sample
  distinct := by
    intro i j h
    cases i <;> cases j <;> simp_all [retryIdentity, Identity.sample]

/-- A report on the first attempt arrives in between those on the retry. -/
theorem sampleAttempts_apart :
    let first := sampleOutcome (.terminal .sample .sample) .notApplied
    let pending := { sampleOutcome .mayStillExecute .unknown with attempt := retryIdentity }
    let ended := { sampleOutcome (.terminal .sample .sample) .applied with attempt := retryIdentity }
    let feed := [pending.into, first.into, ended.into]
    sampleAttempts.records feed false = some first ∧ sampleAttempts.records feed true = some ended ∧
      sampleAttempts.records feed = sampleAttempts.records [first.into, pending.into, ended.into] := by
  intro first pending ended feed
  obtain ⟨hown, _, hinterleaved⟩ := sampleAttempts.records_apart feed
  have hfirst : ∀ i, sampleAttempts.about i first.into = !i := by decide +kernel
  have hpending : ∀ i, sampleAttempts.about i pending.into = i := by decide +kernel
  refine ⟨?_, ?_, hinterleaved _ fun i => ?_⟩
  · rw [hown false]
    decide +kernel
  · rw [hown true]
    decide +kernel
  · cases i <;> simp [feed, hfirst, hpending]

end ProviderSdk
