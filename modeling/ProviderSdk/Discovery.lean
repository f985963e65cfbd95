/-
What a provider offers for completion (`completion_discovery.rs`): a library
of fields for an account, and pages of subjects that narrow it.

A subject's field is looked up in its library by name, first match first;
it is the distinctness of the library's names, checked elsewhere, that makes
the field found the one there is.
-/
import ProviderSdk.CompletionOperation

namespace ProviderSdk

open Checks Text

def maximumFields : Nat := 32
def maximumPageSize : UInt32 := 100

structure Field where
  field : Name
  group : Name
  unitKinds : BTreeSet Name
  readable : Bool
  writable : Bool

structure Library where
  account : Identity
  behavior : Behavior
  fields : List Field

structure Descriptor where
  subject : Subject
  fields : List Field

structure Page where
  library : Library
  subjects : List Descriptor
  nextCursor : Option String

inductive DiscoveryError where
  | limitExceeded
  | invalidMetadata
  | invalidBehavior (error : OperationError)
  deriving DecidableEq

/-! ## The checks -/

/-- The body of the loop in `validate_fields`. -/
def scanField (behavior : Behavior) (seen : BTreeSet Name) (field : Field) :
    Except DiscoveryError (BTreeSet Name) := do
  let (seen, fresh) := seen.insert field.field
  reject (¬ fresh ∨ field.unitKinds.isEmpty ∨ ¬ field.unitKinds.isSubset behavior.units ∨
    (!(field.readable || field.writable)) = true ∨
    field.writable ∧ ¬ ∃ operation ∈ behavior.operations, field.field ∈ operation.effectFields) .invalidMetadata
  pure seen

def validateFields (fields : List Field) (behavior : Behavior) : Except DiscoveryError Unit := do
  reject (fields.length > maximumFields) .limitExceeded
  discard <| fields.foldlM (scanField behavior) .new

def Library.validate (self : Library) (account : Identity) : Except DiscoveryError Unit := do
  reject (self.account ≠ account) .invalidMetadata
  self.behavior.validate.mapError .invalidBehavior
  validateFields self.fields self.behavior

/-- `cursor.is_empty() || cursor.len() > 4096`. -/
def cursorOutOfBounds (cursor : String) : Bool := cursor == "" || decide (cursor.utf8ByteSize > 4096)

def validateRequest (pageSize : UInt32) (cursor : Option String) : Except DiscoveryError Unit :=
  reject (¬ (1 ≤ pageSize ∧ pageSize ≤ maximumPageSize) ∨ cursor.any cursorOutOfBounds) .invalidMetadata

/-- The body of the loop over a subject's fields in `Page::validate`. -/
def Library.checkField (self : Library) (field : Field) : Except DiscoveryError Unit := do
  let declared ← okOr (self.fields.find? (·.field = field.field)) .invalidMetadata
  reject (field.group ≠ declared.group ∨ field.readable ∧ ¬ declared.readable ∨
    field.writable ∧ ¬ declared.writable ∨ ¬ field.unitKinds.isSubset declared.unitKinds) .invalidMetadata

/-- The body of the loop over the subjects in `Page::validate`. -/
def scanDescriptor (library : Library) (seen : BTreeSet Identity) (descriptor : Descriptor) :
    Except DiscoveryError (BTreeSet Identity) := do
  let (seen, fresh) := seen.insert descriptor.subject.identity
  reject (¬ fresh ∨ descriptor.subject.label.utf8ByteSize > 4096 ∨
    hasControl descriptor.subject.label = true ∨ descriptor.subject.role ∉ library.behavior.subjectRoles ∨
    descriptor.fields.isEmpty) .invalidMetadata
  validateFields descriptor.fields library.behavior
  descriptor.fields.forM library.checkField
  pure seen

def Page.validate (self : Page) (account : Identity) (pageSize : UInt32) (cursor : Option String) :
    Except DiscoveryError Unit := do
  validateRequest pageSize cursor
  reject (self.subjects.length > pageSize.toNat) .limitExceeded
  reject (self.nextCursor.any fun next => cursorOutOfBounds next || decide (some next = cursor) ||
    self.subjects.isEmpty) .invalidMetadata
  self.library.validate account
  discard <| self.subjects.foldlM (scanDescriptor self.library) .new

/-! ## What the fields are -/

/-- A field `validate_fields` accepts by itself. -/
structure Field.Valid (behavior : Behavior) (f : Field) : Prop where
  nonempty : ∃ unit, unit ∈ f.unitKinds
  units : ∀ unit ∈ f.unitKinds, unit ∈ behavior.units
  access : f.readable = true ∨ f.writable = true
  writable : f.writable = true → ∃ o ∈ behavior.operations, f.field ∈ o.effectFields

/-- What a subject's field may ask of a field its library declares. -/
structure Field.Narrows (f declared : Field) : Prop where
  field : declared.field = f.field
  group : f.group = declared.group
  unitKinds : ∀ unit ∈ f.unitKinds, unit ∈ declared.unitKinds
  readable : f.readable = true → declared.readable = true
  writable : f.writable = true → declared.writable = true

theorem scanField_guarded {behavior : Behavior} : Guarded (ε := DiscoveryError) (scanField behavior)
    (fun seen f => f.field ∉ seen ∧ f.Valid behavior) (fun seen f => (seen.insert f.field).1) where
  ok_iff {seen f r} := by
    have haccess : ¬ (!(f.readable || f.writable)) = true ↔ f.readable = true ∨ f.writable = true := by
      rw [Bool.not_eq_true', Bool.not_eq_false, Bool.or_eq_true]
    simp only [scanField, bind_ok, reject_ok, not_or, not_and, not_not, haccess, exists_const, pure_ok,
      BTreeSet.insert_fresh, BTreeSet.isSubset_iff, BTreeSet.not_isEmpty]
    refine ⟨fun h => ?_, fun h => ?_⟩
    · obtain ⟨⟨h₁, h₂, h₃, h₄, h₅⟩, hr⟩ := h
      exact ⟨⟨h₁, h₂, h₃, h₄, h₅⟩, hr⟩
    · obtain ⟨⟨h₁, h₂, h₃, h₄, h₅⟩, hr⟩ := h
      exact ⟨⟨h₁, h₂, h₃, h₄, h₅⟩, hr⟩

theorem validateFields_ok {fields : List Field} {behavior : Behavior} {u : Unit} :
    validateFields fields behavior = .ok u ↔
      fields.length ≤ maximumFields ∧ (fields.map (·.field)).Nodup ∧ ∀ f ∈ fields, f.Valid behavior := by
  simp only [validateFields, bind_ok, reject_ok, gt_iff_lt, Nat.not_lt, exists_const, discard_ok,
    scanField_guarded.foldlM_after (b := .new) (fun pre => .collect (pre.map (·.field))) rfl fun pre f => by simp,
    BTreeSet.mem_collect, each_and, each_fresh, each_forall]
  exact and_congr_right fun _ => ⟨fun h => h.choose_spec.1, fun h => ⟨_, h, rfl⟩⟩

/-- A library `Library::validate` accepts for `account`. -/
structure Library.Valid (account : Identity) (l : Library) : Prop where
  inAccount : l.account = account
  behavior : l.behavior.Valid
  bounded : l.fields.length ≤ maximumFields
  distinct : (l.fields.map (·.field)).Nodup
  fields : ∀ f ∈ l.fields, f.Valid l.behavior

@[simp] theorem Library.validate_ok {l : Library} {account : Identity} {u : Unit} :
    l.validate account = .ok u ↔ l.Valid account := by
  simp only [validate, bind_ok, reject_ok, not_not, ne_eq, exists_const, mapError_ok, Behavior.validate_ok,
    validateFields_ok]
  refine ⟨fun h => ?_, fun h => ⟨h.1, h.2, h.3, h.4, h.5⟩⟩
  obtain ⟨h₁, h₂, h₃, h₄, h₅⟩ := h
  exact ⟨h₁, h₂, h₃, h₄, h₅⟩

/-! ## What a page is -/

/-- A field found by its name is the one of that name. -/
theorem Library.checkField_ok {l : Library} (hd : (l.fields.map (·.field)).Nodup) {f : Field} {u : Unit} :
    l.checkField f = .ok u ↔ ∃ declared ∈ l.fields, f.Narrows declared := by
  simp only [checkField, bind_ok, okOr_ok, find_key hd, reject_ok, not_or, not_and, not_not, ne_eq,
    BTreeSet.isSubset_iff]
  refine ⟨fun h => ?_, fun h => ?_⟩
  · obtain ⟨d, ⟨hm, hf⟩, hg, hr, hw, hu⟩ := h
    exact ⟨d, hm, hf, hg, hu, hr, hw⟩
  · obtain ⟨d, hm, hf, hg, hu, hr, hw⟩ := h
    exact ⟨d, ⟨hm, hf⟩, hg, hr, hw, hu⟩

/-- What narrows a field of the behavior is one, as far as it asks for
anything. -/
theorem Field.Narrows.valid {behavior : Behavior} {f declared : Field} (h : f.Narrows declared)
    (hd : declared.Valid behavior) (hn : ∃ unit, unit ∈ f.unitKinds) (ha : f.readable = true ∨ f.writable = true) :
    f.Valid behavior where
  nonempty := hn
  units unit hu := hd.units unit (h.unitKinds unit hu)
  access := ha
  writable hw := h.field ▸ hd.writable (h.writable hw)

/-- What a subject of a page must be by itself. -/
structure Descriptor.Accepted (library : Library) (d : Descriptor) : Prop where
  label : d.subject.label.utf8ByteSize ≤ 4096
  printable : hasControl d.subject.label = false
  role : d.subject.role ∈ library.behavior.subjectRoles
  nonempty : 1 ≤ d.fields.length
  bounded : d.fields.length ≤ maximumFields
  distinct : (d.fields.map (·.field)).Nodup
  asks : ∀ f ∈ d.fields, (∃ unit, unit ∈ f.unitKinds) ∧ (f.readable = true ∨ f.writable = true)
  narrows : ∀ f ∈ d.fields, ∃ declared ∈ library.fields, f.Narrows declared

theorem scanDescriptor_guarded {library : Library} {account : Identity} (hl : library.Valid account) :
    Guarded (ε := DiscoveryError) (scanDescriptor library)
      (fun seen d => d.subject.identity ∉ seen ∧ d.Accepted library)
      (fun seen d => (seen.insert d.subject.identity).1) where
  ok_iff {seen d r} := by
    have hne : ¬ d.fields.isEmpty = true ↔ 1 ≤ d.fields.length := by
      rw [List.isEmpty_iff_length_eq_zero]
      omega
    have hcontrol : ¬ hasControl d.subject.label = true ↔ hasControl d.subject.label = false := by
      rw [Bool.not_eq_true]
    simp only [scanDescriptor, bind_ok, reject_ok, not_or, not_not, gt_iff_lt, Nat.not_lt, exists_const, pure_ok,
      forM_ok, validateFields_ok, BTreeSet.insert_fresh, Library.checkField_ok hl.distinct, hne, hcontrol]
    refine ⟨fun h => ?_, fun h => ?_⟩
    · obtain ⟨⟨h₁, h₂, h₃, h₄, h₅⟩, ⟨h₆, h₇, h₈⟩, h₉, hr⟩ := h
      exact ⟨⟨h₁, h₂, h₃, h₄, h₅, h₆, h₇, fun f hf => ⟨(h₈ f hf).nonempty, (h₈ f hf).access⟩, h₉⟩, hr⟩
    · obtain ⟨⟨h₁, h₂, h₃, h₄, h₅, h₆, h₇, h₈, h₉⟩, hr⟩ := h
      refine ⟨⟨h₁, h₂, h₃, h₄, h₅⟩, ⟨h₆, h₇, fun f hf => ?_⟩, h₉, hr⟩
      obtain ⟨declared, hm, hnarrow⟩ := h₉ f hf
      exact hnarrow.valid (hl.fields declared hm) (h₈ f hf).1 (h₈ f hf).2

/-- A cursor of a request or of a page. -/
def CursorOk (cursor : String) : Prop := 1 ≤ cursor.utf8ByteSize ∧ cursor.utf8ByteSize ≤ 4096

theorem cursorOutOfBounds_iff {cursor : String} : ¬ cursorOutOfBounds cursor = true ↔ CursorOk cursor := by
  have h : cursor = "" ↔ cursor.utf8ByteSize = 0 := String.utf8ByteSize_eq_zero_iff.symm
  simp only [cursorOutOfBounds, CursorOk, Bool.or_eq_true, beq_iff_eq, decide_eq_true_eq, h]
  omega

theorem validateRequest_ok {pageSize : UInt32} {cursor : Option String} {u : Unit} :
    validateRequest pageSize cursor = .ok u ↔
      (1 ≤ pageSize ∧ pageSize ≤ maximumPageSize) ∧ ∀ c, cursor = some c → CursorOk c := by
  have hc : ¬ cursor.any cursorOutOfBounds = true ↔ ∀ c, cursor = some c → CursorOk c := by
    simp only [Option.any_eq_true, not_exists, not_and, cursorOutOfBounds_iff]
  simp only [validateRequest, reject_ok, not_or, not_not, hc]

/-- A page `Page::validate` accepts. -/
structure Page.Accepted (account : Identity) (pageSize : UInt32) (cursor : Option String) (p : Page) : Prop where
  sized : 1 ≤ pageSize ∧ pageSize ≤ maximumPageSize
  current : ∀ c, cursor = some c → CursorOk c
  bounded : p.subjects.length ≤ pageSize.toNat
  next : ∀ n, p.nextCursor = some n → CursorOk n ∧ cursor ≠ some n ∧ p.subjects ≠ []
  library : p.library.Valid account
  distinct : (p.subjects.map (·.subject.identity)).Nodup
  subjects : ∀ d ∈ p.subjects, d.Accepted p.library

theorem Page.validate_ok {p : Page} {account : Identity} {pageSize : UInt32} {cursor : Option String} {u : Unit} :
    p.validate account pageSize cursor = .ok u ↔ p.Accepted account pageSize cursor := by
  have hnext : ¬ (p.nextCursor.any fun next => cursorOutOfBounds next || decide (some next = cursor) ||
      p.subjects.isEmpty) = true ↔
      ∀ n, p.nextCursor = some n → CursorOk n ∧ cursor ≠ some n ∧ p.subjects ≠ [] := by
    simp only [Option.any_eq_true, not_exists, not_and, Bool.or_eq_true, decide_eq_true_eq, not_or,
      cursorOutOfBounds_iff, List.isEmpty_iff, and_assoc, ne_eq, @eq_comm _ cursor]
  have hscan : p.library.Valid account → ((∃ seen, p.subjects.foldlM (scanDescriptor p.library) .new = .ok seen) ↔
      (p.subjects.map (·.subject.identity)).Nodup ∧ ∀ d ∈ p.subjects, d.Accepted p.library) := fun hl => by
    simp only [(scanDescriptor_guarded hl).foldlM_after (b := .new)
      (fun pre => .collect (pre.map (·.subject.identity))) rfl fun pre d => by simp, BTreeSet.mem_collect, each_and,
      each_fresh, each_forall]
    exact ⟨fun h => h.choose_spec.1, fun h => ⟨_, h, rfl⟩⟩
  simp only [validate, bind_ok, validateRequest_ok, exists_const, reject_ok, hnext, gt_iff_lt, Nat.not_lt,
    Library.validate_ok, discard_ok]
  refine ⟨fun h => ?_, fun h => ?_⟩
  · obtain ⟨⟨h₁, h₂⟩, h₃, h₄, h₅, h⟩ := h
    obtain ⟨h₆, h₇⟩ := (hscan h₅).mp h
    exact ⟨h₁, h₂, h₃, h₄, h₅, h₆, h₇⟩
  · exact ⟨⟨h.1, h.2⟩, h.3, h.4, h.5, (hscan h.5).mpr ⟨h.6, h.7⟩⟩

/-! ## Order -/

/-- The same library, its fields and operations in another order. -/
structure Library.Reorders (l l' : Library) : Prop where
  account : l.account = l'.account
  revision : l.behavior.revision = l'.behavior.revision
  subjectRoles : l.behavior.subjectRoles = l'.behavior.subjectRoles
  units : l.behavior.units = l'.behavior.units
  operations : l.behavior.operations.Perm l'.behavior.operations
  fields : l.fields.Perm l'.fields

/-- The same subject, its fields in another order. -/
structure Descriptor.Reorders (d d' : Descriptor) : Prop where
  subject : d.subject = d'.subject
  fields : d.fields.Perm d'.fields

/-- The same page, its subjects, their fields, and its library's fields and
operations in another order. -/
structure Page.Reorders (p p' : Page) : Prop where
  library : p.library.Reorders p'.library
  subjects : ∃ subjects, p.subjects.Perm subjects ∧ List.Forall₂ Descriptor.Reorders subjects p'.subjects
  nextCursor : p.nextCursor = p'.nextCursor

theorem Library.Reorders.symm {l l' : Library} (h : l.Reorders l') : l'.Reorders l :=
  ⟨h.account.symm, h.revision.symm, h.subjectRoles.symm, h.units.symm, h.operations.symm, h.fields.symm⟩

theorem Page.Reorders.symm {p p' : Page} (h : p.Reorders p') : p'.Reorders p := by
  obtain ⟨subjects, hp, hf⟩ := h.subjects
  obtain ⟨subjects', hf', hp'⟩ := List.perm_comp_forall₂ hp hf
  have hback : List.Forall₂ Descriptor.Reorders subjects' p.subjects :=
    (hf'.imp fun _ _ hd => ⟨hd.subject.symm, hd.fields.symm⟩).flip
  exact ⟨h.library.symm, ⟨subjects', hp'.symm, hback⟩, h.nextCursor.symm⟩

theorem Field.Valid.reorder {l l' : Library} (h : l.Reorders l') {f : Field} (hf : f.Valid l.behavior) :
    f.Valid l'.behavior where
  nonempty := hf.nonempty
  units := h.units ▸ hf.units
  access := hf.access
  writable hw := by
    obtain ⟨o, ho, hm⟩ := hf.writable hw
    exact ⟨o, h.operations.subset ho, hm⟩

theorem Library.Valid.reorder {l l' : Library} {account : Identity} (h : l.Reorders l') (hl : l.Valid account) :
    l'.Valid account where
  inAccount := h.account ▸ hl.inAccount
  behavior := {
    revision := h.revision ▸ hl.behavior.revision
    bounded := h.operations.length_eq ▸ hl.behavior.bounded
    classes := (h.operations.map _).nodup_iff.mp hl.behavior.classes
    declares := fun o ho => hl.behavior.declares o (h.operations.mem_iff.mpr ho) }
  bounded := h.fields.length_eq ▸ hl.bounded
  distinct := (h.fields.map _).nodup_iff.mp hl.distinct
  fields f hf := (hl.fields f (h.fields.mem_iff.mpr hf)).reorder h

theorem Descriptor.Accepted.reorder {l l' : Library} {d d' : Descriptor} (h : l.Reorders l') (hd : d.Reorders d')
    (ha : d.Accepted l) : d'.Accepted l' where
  label := hd.subject ▸ ha.label
  printable := hd.subject ▸ ha.printable
  role := hd.subject ▸ h.subjectRoles ▸ ha.role
  nonempty := hd.fields.length_eq ▸ ha.nonempty
  bounded := hd.fields.length_eq ▸ ha.bounded
  distinct := (hd.fields.map _).nodup_iff.mp ha.distinct
  asks f hf := ha.asks f (hd.fields.mem_iff.mpr hf)
  narrows f hf := by
    obtain ⟨declared, hm, hn⟩ := ha.narrows f (hd.fields.mem_iff.mpr hf)
    exact ⟨declared, h.fields.subset hm, hn⟩

/-- No order of its lists makes an accepted page another. -/
theorem Page.Accepted.reorder {p p' : Page} {account : Identity} {pageSize : UInt32} {cursor : Option String}
    (h : p.Reorders p') (ha : p.Accepted account pageSize cursor) : p'.Accepted account pageSize cursor := by
  obtain ⟨subjects, hp, hf⟩ := h.subjects
  have hlength : p.subjects.length = p'.subjects.length := hp.length_eq.trans hf.length_eq
  have hidentities : subjects.map (·.subject.identity) = p'.subjects.map (·.subject.identity) := by
    rw [← List.forall₂_eq_eq_eq, List.forall₂_map_left_iff, List.forall₂_map_right_iff]
    exact hf.imp fun _ _ hd => by rw [hd.subject]
  refine ⟨ha.sized, ha.current, hlength ▸ ha.bounded, fun n hn => ?_, ha.library.reorder h.library, ?_, fun d hd => ?_⟩
  · obtain ⟨h₁, h₂, h₃⟩ := ha.next n (h.nextCursor.trans hn)
    rw [← List.length_pos_iff] at h₃ ⊢
    exact ⟨h₁, h₂, hlength ▸ h₃⟩
  · rw [← hidentities]
    exact (hp.map _).nodup_iff.mp ha.distinct
  · obtain ⟨d₀, hd₀, hr⟩ := forall₂_mem_right hf hd
    exact (ha.subjects d₀ (hp.mem_iff.mpr hd₀)).reorder h.library hr

/-- **What a page must be.** The nested loops of `Page::validate` come down
to conditions on the lists: a valid library of the account, and distinct
subjects each of whose fields narrows the one library field of its name. So
no subject expands what its library declares, and no order matters. -/
theorem Page.accepted_iff (p : Page) (account : Identity) (pageSize : UInt32) (cursor : Option String) :
    (p.validate account pageSize cursor = .ok () ↔
      (1 ≤ pageSize ∧ pageSize ≤ 100) ∧
      (∀ c, cursor = some c → 1 ≤ c.utf8ByteSize ∧ c.utf8ByteSize ≤ 4096) ∧
      p.subjects.length ≤ pageSize.toNat ∧
      (∀ n, p.nextCursor = some n →
        (1 ≤ n.utf8ByteSize ∧ n.utf8ByteSize ≤ 4096) ∧ cursor ≠ some n ∧ p.subjects ≠ []) ∧
      -- the library
      p.library.account = account ∧ p.library.behavior.Valid ∧ p.library.fields.length ≤ 32 ∧
      (p.library.fields.map (·.field)).Nodup ∧
      (∀ f ∈ p.library.fields, (∃ unit, unit ∈ f.unitKinds) ∧
        (∀ unit ∈ f.unitKinds, unit ∈ p.library.behavior.units) ∧ (f.readable = true ∨ f.writable = true) ∧
        (f.writable = true → ∃ o ∈ p.library.behavior.operations, f.field ∈ o.effectFields)) ∧
      -- the subjects
      (p.subjects.map (·.subject.identity)).Nodup ∧
      ∀ d ∈ p.subjects, d.subject.label.utf8ByteSize ≤ 4096 ∧ hasControl d.subject.label = false ∧
        d.subject.role ∈ p.library.behavior.subjectRoles ∧
        (1 ≤ d.fields.length ∧ d.fields.length ≤ 32) ∧ (d.fields.map (·.field)).Nodup ∧
        ∀ f ∈ d.fields, ∃ declared ∈ p.library.fields, declared.field = f.field ∧ f.group = declared.group ∧
          (∃ unit, unit ∈ f.unitKinds) ∧ (∀ unit ∈ f.unitKinds, unit ∈ declared.unitKinds) ∧
          (f.readable = true → declared.readable = true) ∧ (f.writable = true → declared.writable = true) ∧
          (f.readable = true ∨ f.writable = true)) ∧
    (p.validate account pageSize cursor = .ok () →
      ∀ d ∈ p.subjects, ∀ f ∈ d.fields, ∀ declared ∈ p.library.fields, declared.field = f.field →
        f.Narrows declared) ∧
    ∀ p', p.Reorders p' →
      (p.validate account pageSize cursor = .ok () ↔ p'.validate account pageSize cursor = .ok ()) := by
  simp only [validate_ok]
  refine ⟨⟨fun h => ?_, fun h => ?_⟩, fun h d hd f hf declared hm he => ?_, fun p' hp => ?_⟩
  · have hl := h.library
    refine ⟨h.sized, h.current, h.bounded, h.next, hl.inAccount, hl.behavior, hl.bounded, hl.distinct, fun f hf => ?_,
      h.distinct, fun d hd => ?_⟩
    · have hv := hl.fields f hf
      exact ⟨hv.nonempty, hv.units, hv.access, hv.writable⟩
    · have ha := h.subjects d hd
      refine ⟨ha.label, ha.printable, ha.role, ⟨ha.nonempty, ha.bounded⟩, ha.distinct, fun f hf => ?_⟩
      obtain ⟨declared, hm, hn⟩ := ha.narrows f hf
      obtain ⟨hunit, haccess⟩ := ha.asks f hf
      exact ⟨declared, hm, hn.field, hn.group, hunit, hn.unitKinds, hn.readable, hn.writable, haccess⟩
  · obtain ⟨h₁, h₂, h₃, h₄, h₅, h₆, h₇, h₈, hfields, h₉, hsubjects⟩ := h
    refine ⟨h₁, h₂, h₃, h₄, ⟨h₅, h₆, h₇, h₈, fun f hf => ?_⟩, h₉, fun d hd => ?_⟩
    · obtain ⟨h₁, h₂, h₃, h₄⟩ := hfields f hf
      exact ⟨h₁, h₂, h₃, h₄⟩
    · obtain ⟨h₁, h₂, h₃, ⟨h₄, h₅⟩, h₆, hnarrows⟩ := hsubjects d hd
      refine ⟨h₁, h₂, h₃, h₄, h₅, h₆, fun f hf => ?_, fun f hf => ?_⟩
      · obtain ⟨_, _, _, _, hunit, _, _, _, haccess⟩ := hnarrows f hf
        exact ⟨hunit, haccess⟩
      · obtain ⟨declared, hm, h₁, h₂, _, h₃, h₄, h₅, _⟩ := hnarrows f hf
        exact ⟨declared, hm, h₁, h₂, h₃, h₄, h₅⟩
  · obtain ⟨found, hfound, hn⟩ := (h.subjects d hd).narrows f hf
    rwa [List.inj_on_of_nodup_map h.library.distinct hm hfound (he.trans hn.field.symm)]
  · exact ⟨fun h => h.reorder hp, fun h => h.reorder hp.symm⟩

end ProviderSdk
