/-
The two streamed reads (`validation.rs`): catalog and state.

`CatalogStreamValidator` and `StateStreamValidator` are one state machine
over two kinds of batch, so they are `StreamValidator.accept` at their own
batch check. A validator is a monitor, and it recognizes `readGrammar`: what
may come between, numbered batches among it, and at most one event that
ends.
-/
import ProviderSdk.Lib.Monitor
import ProviderSdk.Validation

namespace ProviderSdk

open Checks V1

/-! ## Catalog batches -/

def validateProviderItem (item : ProviderItem) : Except ValidationError Unit := do
  key (← okOr item.key (.missing "provider item key")) "provider item key"
  term (← okOr item.kind (.missing "provider item kind")) "provider item kind"
  nonEmptyText item.displayName "provider item display name"

structure V1.ProviderItem.WellFormed (item : ProviderItem) : Prop where
  key : ∃ k, item.key = some k ∧ k.WellFormed
  kind : ∃ t, item.kind = some t ∧ t.WellFormed
  displayName : TextOk item.displayName

@[simp] theorem validateProviderItem_ok {item : ProviderItem} {u : Unit} :
    validateProviderItem item = .ok u ↔ item.WellFormed := by
  simp only [validateProviderItem, bind_ok, okOr_ok, key_ok, term_ok, nonEmptyText_ok, exists_const]
  refine ⟨fun h => ?_, fun h => ?_⟩
  · obtain ⟨k, hk, hw, t, ht, hw', hn⟩ := h
    exact ⟨⟨k, hk, hw⟩, ⟨t, ht, hw'⟩, hn⟩
  · obtain ⟨⟨k, hk, hw⟩, ⟨t, ht, hw'⟩, hn⟩ := h
    exact ⟨k, hk, hw, t, ht, hw', hn⟩

/-- The body of the loop over the relation upserts. -/
def validateCatalogRelation (relation : CatalogRelation) : Except ValidationError Unit := do
  key (← okOr relation.key (.missing "catalog relation key")) "catalog relation key"
  (match relation.parentKey with
    | some parent => key parent "catalog relation parent key"
    | none => pure ())
  (match relation.providerItemKey with
    | some item => key item "catalog relation provider item key"
    | none => pure ())
  term (← okOr relation.kind (.missing "catalog relation kind")) "catalog relation kind"

structure V1.CatalogRelation.WellFormed (relation : CatalogRelation) : Prop where
  key : ∃ k, relation.key = some k ∧ k.WellFormed
  parentKey : ∀ k, relation.parentKey = some k → k.WellFormed
  providerItemKey : ∀ k, relation.providerItemKey = some k → k.WellFormed
  kind : ∃ t, relation.kind = some t ∧ t.WellFormed

@[simp] theorem validateCatalogRelation_ok {relation : CatalogRelation} {u : Unit} :
    validateCatalogRelation relation = .ok u ↔ relation.WellFormed := by
  have hopt : ∀ (o : Option Key) (field : String), (match o with
      | some k => key k field
      | none => pure ()) = .ok () ↔ ∀ k, o = some k → k.WellFormed := fun o field => by
    cases o <;> simp
  simp only [validateCatalogRelation, bind_ok, okOr_ok, key_ok, term_ok, exists_const, hopt]
  refine ⟨fun h => ?_, fun h => ?_⟩
  · obtain ⟨k, hk, hw, hp, hi, t, ht, hw'⟩ := h
    exact ⟨⟨k, hk, hw⟩, hp, hi, ⟨t, ht, hw'⟩⟩
  · obtain ⟨⟨k, hk, hw⟩, hp, hi, ⟨t, ht, hw'⟩⟩ := h
    exact ⟨k, hk, hw, hp, hi, t, ht, hw'⟩

def validateSubjectUnitBindingKey (key : SubjectUnitBindingKey) : Except ValidationError Unit := do
  mappingUnitKey key.unitKey
  validateSubject (← okOr key.subject (.missing "mapping unit subject"))

structure V1.SubjectUnitBindingKey.WellFormed (key : SubjectUnitBindingKey) : Prop where
  unitKey : ∃ unit, MappingUnitKey.parse key.unitKey = .ok unit
  subject : ∃ s, key.subject = some s ∧ s.WellFormed

@[simp] theorem validateSubjectUnitBindingKey_ok {key : SubjectUnitBindingKey} {u : Unit} :
    validateSubjectUnitBindingKey key = .ok u ↔ key.WellFormed := by
  simp only [validateSubjectUnitBindingKey, mappingUnitKey, bind_ok, discard_ok, okOr_ok, validateSubject_ok,
    exists_const]
  refine ⟨fun h => ?_, fun h => ?_⟩
  · obtain ⟨h, h'⟩ := h
    exact ⟨h, h'⟩
  · obtain ⟨h, h'⟩ := h
    exact ⟨h, h'⟩

/-- The body of the loop over the unit binding upserts. -/
def validateSubjectUnitBinding (binding : SubjectUnitBinding) : Except ValidationError Unit := do
  validateSubjectUnitBindingKey (← okOr binding.key (.missing "subject unit binding key"))
  discard <| okOr binding.relevanceRank (.missing "subject unit binding relevance rank")

def validateCatalogBatch (batch : CatalogBatch) (expected : UInt64) : Except ValidationError Unit := do
  reject (batch.sequence ≠ expected) (.invalidSequence expected batch.sequence)
  batch.itemUpserts.forM validateProviderItem
  batch.itemDeletes.forM (key · "deleted provider item key")
  batch.relationUpserts.forM validateCatalogRelation
  batch.relationDeletes.forM (key · "deleted catalog relation key")
  batch.unitBindingUpserts.forM validateSubjectUnitBinding
  batch.unitBindingDeletes.forM validateSubjectUnitBindingKey

/-- A batch whose every record is well formed, whatever its number. -/
structure V1.CatalogBatch.WellFormed (batch : CatalogBatch) : Prop where
  itemUpserts : ∀ item ∈ batch.itemUpserts, item.WellFormed
  itemDeletes : ∀ k ∈ batch.itemDeletes, k.WellFormed
  relationUpserts : ∀ relation ∈ batch.relationUpserts, relation.WellFormed
  relationDeletes : ∀ k ∈ batch.relationDeletes, k.WellFormed
  unitBindingUpserts : ∀ b ∈ batch.unitBindingUpserts,
    (∃ k, b.key = some k ∧ k.WellFormed) ∧ b.relevanceRank.isSome = true
  unitBindingDeletes : ∀ k ∈ batch.unitBindingDeletes, k.WellFormed

theorem validateCatalogBatch_ok {batch : CatalogBatch} {expected : UInt64} {u : Unit} :
    validateCatalogBatch batch expected = .ok u ↔ batch.sequence = expected ∧ batch.WellFormed := by
  have hb : ∀ b, validateSubjectUnitBinding b = .ok ⟨⟩ ↔
      (∃ k, b.key = some k ∧ k.WellFormed) ∧ b.relevanceRank.isSome = true := fun b => by
    unfold validateSubjectUnitBinding
    cases b.key <;> simp [discard_ok, Option.isSome_iff_exists]
  simp only [validateCatalogBatch, bind_ok, reject_ok, not_not, exists_const, forM_ok, validateProviderItem_ok,
    key_ok, validateCatalogRelation_ok, hb, validateSubjectUnitBindingKey_ok, ne_eq]
  refine and_congr_right fun _ => ⟨fun h => ?_, fun h => ⟨h.1, h.2, h.3, h.4, h.5, h.6⟩⟩
  obtain ⟨h₁, h₂, h₃, h₄, h₅, h₆⟩ := h
  exact ⟨h₁, h₂, h₃, h₄, h₅, h₆⟩

/-! ## State batches -/

/-- The body of the loop over the observations of a state batch. -/
def validateStateObservation (observation : StateObservation) : Except ValidationError Unit := do
  let subject ← okOr observation.subject (.missing "state subject")
  let subject ← okOr subject.subject (.missing "state subject reference")
  (match subject with
    | .providerItemKey value => key value "state provider item key"
    | .catalogRelationKey value => key value "state catalog relation key")
  validateStateField (← okOr observation.field (.missing "state field"))
  reject observation.observation.isNone (.missing "state observation operation")

def validateStateBatch (batch : StateBatch) (expected : UInt64) : Except ValidationError Unit := do
  reject (batch.sequence ≠ expected) (.invalidSequence expected batch.sequence)
  batch.observations.forM validateStateObservation

structure V1.StateObservation.WellFormed (o : StateObservation) : Prop where
  subject : ∃ s, o.subject = some s ∧ s.WellFormed
  field : ∃ f, o.field = some f ∧ f.WellFormed
  observation : o.observation.isSome = true

theorem validateStateObservation_ok {o : StateObservation} {u : Unit} :
    validateStateObservation o = .ok u ↔ o.WellFormed := by
  have hk : ∀ subject : SubjectKey, (match subject with
      | .providerItemKey value => key value "state provider item key"
      | .catalogRelationKey value => key value "state catalog relation key") = .ok () ↔
        subject.key.WellFormed := fun subject => by
    cases subject <;> exact key_ok
  simp only [validateStateObservation, bind_ok, okOr_ok, hk, validateStateField_ok, exists_const, reject_ok,
    Bool.not_eq_true, Option.isNone_eq_false_iff]
  refine ⟨fun h => ?_, fun h => ?_⟩
  · obtain ⟨s, hs, k, hk, hw, f, hf, hwf, ho⟩ := h
    exact ⟨⟨s, hs, k, hk, hw⟩, ⟨f, hf, hwf⟩, ho⟩
  · obtain ⟨⟨s, hs, k, hk, hw⟩, ⟨f, hf, hwf⟩, ho⟩ := h
    exact ⟨s, hs, k, hk, hw, f, hf, hwf, ho⟩

/-- A batch whose every observation is well formed, whatever its number. -/
def V1.StateBatch.WellFormed (batch : StateBatch) : Prop := ∀ o ∈ batch.observations, o.WellFormed

theorem validateStateBatch_ok {batch : StateBatch} {expected : UInt64} {u : Unit} :
    validateStateBatch batch expected = .ok u ↔ batch.sequence = expected ∧ batch.WellFormed := by
  simp only [validateStateBatch, bind_ok, reject_ok, not_not, exists_const, forM_ok, validateStateObservation_ok,
    ne_eq, StateBatch.WellFormed]

/-! ## Events that end a stream -/

def validateHeartbeat (heartbeat : ReadHeartbeat) : Except ValidationError Unit :=
  reject heartbeat.operationId.isEmpty (.empty "read heartbeat operation ID")

def validateCompleted (completed : ReadCompleted) : Except ValidationError Unit := do
  reject completed.nextCursor.isEmpty (.empty "read next cursor")
  reject completed.evidenceRevision.isEmpty (.empty "read evidence revision")

def validateFailed (failed : ReadFailed) : Except ValidationError Unit := do
  adapterError (← okOr failed.error (.missing "read failure error"))

/-! ## The validators -/

structure StreamValidator where
  nextSequence : UInt64 := 0
  terminal : Bool := false
  deriving DecidableEq

/-- `&mut self` calls that may fail: what was written before an error stays. -/
abbrev StreamM : Type → Type := ExceptT ValidationError (StateM StreamValidator)

/-- The result of a call, and what it leaves behind. -/
def StreamM.call {α : Type} (x : StreamM α) (self : StreamValidator) : Except ValidationError α × StreamValidator :=
  x.run.run self

section

variable {α β : Type} {self : StreamValidator}

@[simp] theorem StreamM.call_bind {x : StreamM α} {f : α → StreamM β} : (x >>= f : StreamM β).call self =
    match x.call self with
    | (.ok a, after) => (f a).call after
    | (.error e, after) => (.error e, after) := by
  obtain ⟨r, after, h⟩ : ∃ r after, x.call self = (r, after) := ⟨_, _, rfl⟩
  rw [h]
  cases r with
  | ok a => exact run_bind_ok h
  | error e => exact run_bind_error h

@[simp] theorem StreamM.call_ofExcept {x : Except ValidationError α} :
    (ofExcept x : StreamM α).call self = (x, self) := run_ofExcept

@[simp] theorem StreamM.call_get : (get : StreamM StreamValidator).call self = (.ok self, self) := rfl

@[simp] theorem StreamM.call_throw {e : ValidationError} : (throw e : StreamM α).call self = (.error e, self) := rfl

@[simp] theorem StreamM.call_modify {f : StreamValidator → StreamValidator} :
    (modify f : StreamM Unit).call self = (.ok (), f self) := rfl

end

variable {B : Type}

/-- `accept` of both validators, at its batch check. `missing` names an
absent event. -/
def StreamValidator.accept (missing : String) (validateBatch : B → UInt64 → Except ValidationError Unit)
    (event : ReadResponse B) : StreamM Unit := do
  if (← get).terminal then
    throw .eventAfterTerminal
  let event ← ofExcept (okOr event.event (.missing missing))
  (match event with
    | .heartbeat heartbeat => ofExcept (validateHeartbeat heartbeat)
    | .batch batch => do
      ofExcept (validateBatch batch (← get).nextSequence)
      modify fun self => { self with nextSequence := self.nextSequence + 1 }
    | .completed completed => do
      ofExcept (validateCompleted completed)
      modify fun self => { self with terminal := true }
    | .failed failed => do
      ofExcept (validateFailed failed)
      modify fun self => { self with terminal := true }
    | .cancelled => modify fun self => { self with terminal := true })

def StreamValidator.finish (self : StreamValidator) : Except ValidationError Unit :=
  if self.terminal then .ok () else .error .missingTerminal

def CatalogStreamValidator.accept : ReadCatalogResponse → StreamM Unit :=
  StreamValidator.accept "catalog read event" validateCatalogBatch

def StateStreamValidator.accept : ReadStateResponse → StreamM Unit :=
  StreamValidator.accept "state read event" validateStateBatch

/-- A call of `accept` on a validator, as a monitor sees it. -/
def monitor (accept : ReadResponse B → StreamM Unit) : Monitor.Step StreamValidator (ReadResponse B) ValidationError :=
  fun self event => (accept event).call self

/-- What one call of `accept` decides and leaves behind. -/
theorem monitor_accept {missing : String} {validateBatch : B → UInt64 → Except ValidationError Unit}
    (self : StreamValidator) (response : ReadResponse B) :
    monitor (StreamValidator.accept missing validateBatch) self response =
      if self.terminal then (.error .eventAfterTerminal, self)
      else match response.event with
        | none => (.error (.missing missing), self)
        | some (.heartbeat heartbeat) => (validateHeartbeat heartbeat, self)
        | some (.batch batch) =>
          (validateBatch batch self.nextSequence,
            if (validateBatch batch self.nextSequence).isOk then
              { self with nextSequence := self.nextSequence + 1 } else self)
        | some (.completed completed) =>
          (validateCompleted completed,
            if (validateCompleted completed).isOk then { self with terminal := true } else self)
        | some (.failed failed) =>
          (validateFailed failed, if (validateFailed failed).isOk then { self with terminal := true } else self)
        | some .cancelled => (.ok (), { self with terminal := true }) := by
  obtain ⟨n, terminal⟩ := self
  obtain ⟨event⟩ := response
  cases terminal with
  | true => rfl
  | false =>
    rcases event with _ | event
    · rfl
    cases event with
    | heartbeat heartbeat => cases h : validateHeartbeat heartbeat <;> simp [monitor, StreamValidator.accept, h, okOr]
    | batch batch => cases h : validateBatch batch n <;> simp [monitor, StreamValidator.accept, h, okOr]
    | completed completed => cases h : validateCompleted completed <;> simp [monitor, StreamValidator.accept, h, okOr]
    | failed failed => cases h : validateFailed failed <;> simp [monitor, StreamValidator.accept, h, okOr]
    | cancelled => rfl

/-! ## The grammar of a stream -/

/-- An event a stream may go on after, with `WellFormed` batches. -/
def Continues (WellFormed : B → Prop) (response : ReadResponse B) : Prop :=
  (∃ heartbeat, response.event = some (.heartbeat heartbeat) ∧ heartbeat.operationId ≠ []) ∨
    ∃ batch, response.event = some (.batch batch) ∧ WellFormed batch

/-- An event that ends a stream. -/
def Ends (response : ReadResponse B) : Prop :=
  (∃ completed, response.event = some (.completed completed) ∧ completed.nextCursor ≠ [] ∧
    completed.evidenceRevision ≠ []) ∨
  (∃ failed error, response.event = some (.failed failed) ∧ failed.error = some error ∧ error.WellFormed) ∨
  response.event = some .cancelled

/-- The sequence numbers of the batches among events. -/
def sequences (sequence : B → UInt64) (events : List (ReadResponse B)) : List UInt64 :=
  events.filterMap fun response => match response.event with
    | some (.batch batch) => some (sequence batch)
    | _ => none

open Computability in
/-- `(heartbeat | batch)*`, then at most one event that ends, the batches
numbered from zero. -/
def readGrammar (sequence : B → UInt64) (WellFormed : B → Prop) : Language (ReadResponse B) :=
  {w | w ∈ (Monitor.letters (Continues WellFormed))∗ * (1 + Monitor.letters Ends) ∧
    (sequences sequence w).map UInt64.toNat = List.range (sequences sequence w).length}

theorem Continues.not_ends {WellFormed : B → Prop} {r : ReadResponse B} (h : Continues WellFormed r) : ¬ Ends r := by
  intro he
  rcases h with ⟨_, h, _⟩ | ⟨_, h, _⟩ <;> rcases he with ⟨_, he, _⟩ | ⟨_, _, he, _⟩ | he <;>
    rw [h] at he <;> cases he

theorem sequences_concat {sequence : B → UInt64} {w : List (ReadResponse B)} {r : ReadResponse B} :
    sequences sequence (w ++ [r]) = sequences sequence w ++ sequences sequence [r] := by
  simp [sequences]

/-- The next batch carries the number of batches so far. -/
theorem numbered_concat {l l' : List UInt64} (h : l'.length ≤ 1) :
    (l ++ l').map UInt64.toNat = List.range (l ++ l').length ↔
      l.map UInt64.toNat = List.range l.length ∧ ∀ n ∈ l', n.toNat = l.length := by
  match l' with
  | [] => simp
  | [n] =>
    rw [List.length_append, List.length_singleton, List.range_succ, List.map_append, List.map_singleton]
    refine ⟨fun he => ?_, fun he => ?_⟩
    · obtain ⟨h₁, h₂⟩ := List.append_inj' he rfl
      simp_all
    · rw [he.1, he.2 n (by simp)]
  | _ :: _ :: _ => simp at h

theorem concat_mem_readGrammar {sequence : B → UInt64} {WellFormed : B → Prop} {w : List (ReadResponse B)}
    {r : ReadResponse B} : w ++ [r] ∈ readGrammar sequence WellFormed ↔
      (∀ x ∈ w, Continues WellFormed x) ∧ (sequences sequence w).map UInt64.toNat =
        List.range (sequences sequence w).length ∧
      (Continues WellFormed r ∨ Ends r) ∧ ∀ n ∈ sequences sequence [r], n.toNat = (sequences sequence w).length := by
  have hlen : (sequences sequence [r]).length ≤ 1 := List.length_filterMap_le ..
  have hmem : w ++ [r] ∈ readGrammar sequence WellFormed ↔
      w ++ [r] ∈ (KStar.kstar (Monitor.letters (Continues WellFormed))) * (1 + Monitor.letters Ends) ∧
      (sequences sequence (w ++ [r])).map UInt64.toNat = List.range (sequences sequence (w ++ [r])).length := .rfl
  rw [hmem, Monitor.concat_mem_letters, sequences_concat, numbered_concat hlen]
  refine ⟨fun h => ?_, fun h => ?_⟩
  · obtain ⟨⟨h₁, h₂⟩, h₃, h₄⟩ := h
    exact ⟨h₁, h₃, h₂, h₄⟩
  · obtain ⟨h₁, h₃, h₂, h₄⟩ := h
    exact ⟨⟨h₁, h₂⟩, h₃, h₄⟩

/-! ## What a validator stands for -/

/-- A validator after a history of accepted events: it counts their batches,
and knows whether one of them ended the stream. -/
structure Stands (sequence : B → UInt64) (WellFormed : B → Prop) (v : StreamValidator)
    (w : List (ReadResponse B)) : Prop where
  numbered : (sequences sequence w).map UInt64.toNat = List.range (sequences sequence w).length
  counts : v.nextSequence.toNat = (sequences sequence w).length
  continues : v.terminal = false → ∀ r ∈ w, Continues WellFormed r
  ended : v.terminal = true ↔ ∃ r ∈ w, Ends r

section

variable {sequence : B → UInt64} {WellFormed : B → Prop} {missing : String}
  {validateBatch : B → UInt64 → Except ValidationError Unit}

/-- The decision on an event, in terms of the history. -/
theorem monitor_accepts (hbatch : ∀ batch expected, validateBatch batch expected = .ok () ↔
      sequence batch = expected ∧ WellFormed batch) {v : StreamValidator} {w : List (ReadResponse B)}
    (h : Stands sequence WellFormed v w) (r : ReadResponse B) :
    (monitor (StreamValidator.accept missing validateBatch) v r).1.isOk = true ↔
      w ++ [r] ∈ readGrammar sequence WellFormed := by
  rw [concat_mem_readGrammar, monitor_accept]
  cases ht : v.terminal with
  | true =>
    obtain ⟨x, hx, he⟩ := h.ended.mp ht
    have hno : ¬ ∀ x ∈ w, Continues WellFormed x := fun hall => (hall x hx).not_ends he
    simp [hno]
  | false =>
    rw [if_neg (by simp), and_iff_right (h.continues ht), and_iff_right h.numbered, ← h.counts]
    obtain ⟨event⟩ := r
    rcases event with _ | event
    · simp [Continues, Ends]
    cases event with
    | heartbeat heartbeat => simp [isOk_iff, Continues, Ends, sequences, validateHeartbeat]
    | batch batch => simp [isOk_iff, Continues, Ends, sequences, hbatch, UInt64.toNat_inj, and_comm]
    | completed completed => simp [isOk_iff, Continues, Ends, sequences, validateCompleted]
    | failed failed => simp [isOk_iff, Continues, Ends, sequences, validateFailed]
    | cancelled => simp [Continues, Ends, sequences]

/-- No error path leaves a validator half updated. -/
theorem monitor_inert : Monitor.Inert (monitor (StreamValidator.accept missing validateBatch)) := by
  intro v r
  rw [monitor_accept]
  split
  · exact fun _ => rfl
  · split <;> intro h <;> simp_all

/-- What an accepted event does to the state. -/
theorem monitor_next {v : StreamValidator} {r : ReadResponse B}
    (h : (monitor (StreamValidator.accept missing validateBatch) v r).1.isOk = true) :
    v.terminal = false ∧ (monitor (StreamValidator.accept missing validateBatch) v r).2 =
      match r.event with
      | some (.heartbeat _) => v
      | some (.batch _) => { v with nextSequence := v.nextSequence + 1 }
      | _ => { v with terminal := true } := by
  rw [monitor_accept] at h ⊢
  cases ht : v.terminal with
  | true => simp [ht] at h
  | false =>
    simp only [ht, Bool.false_eq_true, if_false] at h ⊢
    refine ⟨trivial, ?_⟩
    obtain ⟨event⟩ := r
    rcases event with _ | event
    · simp at h
    cases event <;> simp_all

theorem monitor_stands (hbatch : ∀ batch expected, validateBatch batch expected = .ok () ↔
      sequence batch = expected ∧ WellFormed batch) {v : StreamValidator} {w : List (ReadResponse B)}
    (h : Stands sequence WellFormed v w) {r : ReadResponse B} (hfew : (sequences sequence (w ++ [r])).length < 2 ^ 64)
    (hr : (monitor (StreamValidator.accept missing validateBatch) v r).1.isOk = true) :
    Stands sequence WellFormed (monitor (StreamValidator.accept missing validateBatch) v r).2 (w ++ [r]) := by
  have hword := (monitor_accepts hbatch h r).mp hr
  obtain ⟨hall, _, hkind, _⟩ := concat_mem_readGrammar.mp hword
  obtain ⟨ht, hnext⟩ := monitor_next hr
  have hnone : ¬ ∃ x ∈ w, Ends x := fun he => by
    have htrue := h.ended.mpr he
    rw [ht] at htrue
    cases htrue
  have hcounts := h.counts
  rw [sequences_concat, List.length_append, ← hcounts] at hfew
  have hend : (monitor (StreamValidator.accept missing validateBatch) v r).2.terminal = true ↔ Ends r := by
    rw [hnext]
    obtain ⟨event⟩ := r
    rcases event with _ | event
    · simp [Continues, Ends] at hkind
    cases event <;> simp_all [Continues, Ends]
  refine ⟨hword.2, ?_, ?_, ?_⟩
  · rw [hnext, sequences_concat, List.length_append, ← hcounts]
    obtain ⟨event⟩ := r
    rcases event with _ | event
    · simp [Continues, Ends] at hkind
    cases event <;> simp_all [sequences]
  · intro hfalse x hx
    rcases List.mem_append.mp hx with hx | hx
    · exact hall x hx
    · rw [List.mem_singleton.mp hx]
      refine hkind.resolve_right fun he => ?_
      rw [hend.mpr he] at hfalse
      cases hfalse
  · rw [hend]
    refine ⟨fun he => ⟨r, by simp, he⟩, fun hex => ?_⟩
    obtain ⟨x, hx, he⟩ := hex
    rcases List.mem_append.mp hx with hx | hx
    · exact absurd ⟨x, hx, he⟩ hnone
    · exact List.mem_singleton.mp hx ▸ he

/-- A validator recognizes its grammar, as long as its counter does not
wrap. -/
theorem monitor_recognizes (hbatch : ∀ batch expected, validateBatch batch expected = .ok () ↔
      sequence batch = expected ∧ WellFormed batch) :
    Monitor.Recognizes (monitor (StreamValidator.accept missing validateBatch)) (readGrammar sequence WellFormed)
      (fun w => (sequences sequence w).length < 2 ^ 64) (Stands sequence WellFormed) where
  inert := monitor_inert
  mono hw hfew := (hw.filterMap _).length_le.trans_lt hfew
  accepts h _ := monitor_accepts hbatch h _
  next h hfew hr := monitor_stands hbatch h hfew hr

theorem Stands.start : Stands sequence WellFormed {} [] :=
  ⟨rfl, rfl, fun _ => by simp, by simp⟩

end

/-- What a stream validator promises of a feed, errors and all. -/
structure StreamContract (accept : ReadResponse B → StreamM Unit) (sequence : B → UInt64) (WellFormed : B → Prop)
    (feed : List (ReadResponse B)) : Prop where
  /-- The accepted events are a word of the grammar. -/
  word : Monitor.accepted (monitor accept) {} feed ∈ readGrammar sequence WellFormed
  /-- An event is accepted exactly when it leaves the accepted events in the grammar. -/
  decides : ∀ pre r post, feed = pre ++ r :: post →
    ((monitor accept (Monitor.final (monitor accept) {} pre) r).1.isOk = true ↔
      Monitor.accepted (monitor accept) {} pre ++ [r] ∈ readGrammar sequence WellFormed)
  /-- A rejected event leaves the validator as it was. -/
  inert : ∀ v r e, (monitor accept v r).1 = .error e → (monitor accept v r).2 = v
  /-- Deleting a rejected event changes no other decision. -/
  erase : ∀ (i : Nat) e, (Monitor.decisions (monitor accept) {} feed)[i]? = some (.error e) →
    Monitor.decisions (monitor accept) {} (feed.eraseIdx i) =
      (Monitor.decisions (monitor accept) {} feed).eraseIdx i
  /-- Nor does deleting all of them. -/
  eraseAll : Monitor.decisions (monitor accept) {} (Monitor.accepted (monitor accept) {} feed) =
    (Monitor.decisions (monitor accept) {} feed).filter (·.isOk)
  /-- `finish` succeeds exactly after an event that ends. -/
  finish : (Monitor.final (monitor accept) {} feed).finish = .ok () ↔
    ∃ r ∈ Monitor.accepted (monitor accept) {} feed, Ends r

theorem streamContract {missing : String} {validateBatch : B → UInt64 → Except ValidationError Unit}
    {sequence : B → UInt64} {WellFormed : B → Prop} (hbatch : ∀ batch expected,
      validateBatch batch expected = .ok () ↔ sequence batch = expected ∧ WellFormed batch)
    {feed : List (ReadResponse B)} (hfew : (sequences sequence feed).length < 2 ^ 64) :
    StreamContract (StreamValidator.accept missing validateBatch) sequence WellFormed feed := by
  have hrec : Monitor.Recognizes (monitor (StreamValidator.accept missing validateBatch)) _ _ _ :=
    monitor_recognizes hbatch
  have hnil : [] ∈ readGrammar sequence WellFormed :=
    ⟨⟨[], Monitor.mem_letters_kstar.mpr (by simp), [], .inl rfl, rfl⟩, rfl⟩
  have hstands := hrec.final .start hfew
  refine {
    word := hrec.accepted_mem .start hnil hfew
    decides := fun pre r post he => hrec.decides .start (he ▸ hfew)
    inert := fun v r e he => hrec.inert v r (by rw [he]; rfl)
    erase := fun i e => hrec.inert.decisions_eraseIdx
    eraseAll := hrec.inert.decisions_accepted
    finish := ?_ }
  rw [← hstands.ended, StreamValidator.finish]
  split <;> simp_all

/-- **Both validators recognize the grammar of their stream.** Over any feed
of fewer than 2^64 batches, whatever else is in it. -/
theorem streams_recognize_grammar (catalog : List ReadCatalogResponse) (state : List ReadStateResponse)
    (hcatalog : (sequences CatalogBatch.sequence catalog).length < 2 ^ 64)
    (hstate : (sequences StateBatch.sequence state).length < 2 ^ 64) :
    StreamContract CatalogStreamValidator.accept CatalogBatch.sequence CatalogBatch.WellFormed catalog ∧
      StreamContract StateStreamValidator.accept StateBatch.sequence StateBatch.WellFormed state := by
  have hc : ∀ batch expected, validateCatalogBatch batch expected = .ok () ↔
      batch.sequence = expected ∧ batch.WellFormed := fun _ _ => validateCatalogBatch_ok
  have hs : ∀ batch expected, validateStateBatch batch expected = .ok () ↔
      batch.sequence = expected ∧ batch.WellFormed := fun _ _ => validateStateBatch_ok
  exact ⟨streamContract hc hcatalog, streamContract hs hstate⟩

/-- A feed with a batch out of order and an event after the end. -/
def sampleFeed {B : Type} (batch : UInt64 → B) : List (ReadResponse B) :=
  [⟨some (.batch (batch 1))⟩, ⟨some (.batch (batch 0))⟩, ⟨some .cancelled⟩, ⟨some .cancelled⟩]

theorem sampleFeed_recognized :
    StreamContract CatalogStreamValidator.accept CatalogBatch.sequence CatalogBatch.WellFormed
        (sampleFeed fun n => ⟨n, [], [], [], [], [], []⟩) ∧
      StreamContract StateStreamValidator.accept StateBatch.sequence StateBatch.WellFormed
        (sampleFeed fun n => ⟨n, []⟩) :=
  streams_recognize_grammar _ _ (by decide) (by decide)

end ProviderSdk
