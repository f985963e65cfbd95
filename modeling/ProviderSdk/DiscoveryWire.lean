/-
How libraries and pages of subjects travel (`completion_wire.rs`).

Nothing in the SDK writes these messages, so the message that spells a
library or a page is a definition of its own here: its sets listed in
increasing order. The decoder is measured against it. It accepts a message
exactly where it is such a spelling up to the order of its lists, of a
library or page the typed checks accept, within the sizes it asks for; the
collection limits of the decoders below it add one condition only, on the
classifications of a subject.

How long a message is encoded, `prost` computes, which is not part of the
repository: `ProstDiscovery` is its `encoded_len`, and what is relied on is
named (`ProstDiscovery.Lawful`).
-/
import ProviderSdk.BehaviorWire
import ProviderSdk.CanonicalRead
import ProviderSdk.Discovery
import ProviderSdk.Validation

namespace ProviderSdk

open Checks Codec

/-! ## The same messages in another order -/

namespace V1

/-- The same behavior, its operations and its other lists in another order. -/
structure CompletionBehavior.Shuffles (w w' : CompletionBehavior) : Prop where
  revision : w.revision = w'.revision
  subjectRoles : w.subjectRoles.Perm w'.subjectRoles
  units : w.units.Perm w'.units
  operations : Shuffled CompletionOperationCapability.Reorders w.operations w'.operations

structure CompletionSubjectField.Reorders (w w' : CompletionSubjectField) : Prop where
  field : w.field = w'.field
  group : w.group = w'.group
  unitKinds : w.unitKinds.Perm w'.unitKinds
  readable : w.readable = w'.readable
  writable : w.writable = w'.writable

structure CompletionLibrary.Reorders (w w' : CompletionLibrary) : Prop where
  account : w.account = w'.account
  behavior : Option.Rel CompletionBehavior.Shuffles w.behavior w'.behavior
  fields : Shuffled CompletionSubjectField.Reorders w.fields w'.fields

structure CompletionSubjectDescriptor.Reorders (w w' : CompletionSubjectDescriptor) : Prop where
  subject : Option.Rel CompletionSubject.Reorders w.subject w'.subject
  fields : Shuffled CompletionSubjectField.Reorders w.fields w'.fields

/-- The same page: its subjects, and every list in it and in them, in another
order. -/
structure CompletionSubjectPage.Reorders (w w' : CompletionSubjectPage) : Prop where
  library : Option.Rel CompletionLibrary.Reorders w.library w'.library
  subjects : Shuffled CompletionSubjectDescriptor.Reorders w.subjects w'.subjects
  nextCursor : w.nextCursor = w'.nextCursor

theorem CompletionOperationCapability.Reorders.symm {w w' : CompletionOperationCapability} (h : w.Reorders w') :
    w'.Reorders w :=
  ⟨h.operationClass.symm, h.effectFields.symm, h.protection.symm, h.deduplication.symm, h.reconciliation.symm⟩

theorem CompletionBehavior.Reorders.symm {w w' : CompletionBehavior} (h : w.Reorders w') : w'.Reorders w :=
  ⟨h.revision.symm, h.subjectRoles.symm, h.units.symm, h.operations.flip.imp fun _ _ ho => ho.symm⟩

theorem CompletionBehavior.Shuffles.symm {w w' : CompletionBehavior} (h : w.Shuffles w') : w'.Shuffles w :=
  ⟨h.revision.symm, h.subjectRoles.symm, h.units.symm, h.operations.symm (·.symm)⟩

theorem CompletionSubjectField.Reorders.symm {w w' : CompletionSubjectField} (h : w.Reorders w') : w'.Reorders w :=
  ⟨h.field.symm, h.group.symm, h.unitKinds.symm, h.readable.symm, h.writable.symm⟩

theorem CompletionLibrary.Reorders.symm {w w' : CompletionLibrary} (h : w.Reorders w') : w'.Reorders w :=
  ⟨h.account.symm, rel_symm (·.symm) h.behavior, h.fields.symm (·.symm)⟩

theorem CompletionSubject.Reorders.symm {w w' : CompletionSubject} (h : w.Reorders w') : w'.Reorders w := by
  obtain ⟨hp⟩ := h
  exact .classifications (w := { w with classifications := _ }) hp.symm

theorem CompletionSubjectDescriptor.Reorders.symm {w w' : CompletionSubjectDescriptor} (h : w.Reorders w') :
    w'.Reorders w :=
  ⟨rel_symm (·.symm) h.subject, h.fields.symm (·.symm)⟩

theorem CompletionSubjectPage.Reorders.symm {w w' : CompletionSubjectPage} (h : w.Reorders w') : w'.Reorders w :=
  ⟨rel_symm (·.symm) h.library, h.subjects.symm (·.symm), h.nextCursor.symm⟩

end V1

/-! ## Encoded lengths -/

/-- The encoded lengths the decoders ask `prost` for. -/
class ProstDiscovery where
  libraryLen : V1.CompletionLibrary → Nat
  subjectPageLen : V1.CompletionSubjectPage → Nat

/-- The lists of names in a message of a library. -/
def V1.CompletionLibrary.names (w : V1.CompletionLibrary) : List (List String) :=
  (w.behavior.toList.flatMap fun b =>
    b.subjectRoles :: b.units :: b.operations.flatMap fun o => [o.effectFields, o.reconciliation]) ++
  w.fields.map (·.unitKinds)

theorem V1.CompletionLibrary.mem_names {w : V1.CompletionLibrary} {names : List String} : names ∈ w.names ↔
    (∃ b, w.behavior = some b ∧ (names = b.subjectRoles ∨ names = b.units ∨
      ∃ o ∈ b.operations, names = o.effectFields ∨ names = o.reconciliation)) ∨
    ∃ f ∈ w.fields, names = f.unitKinds := by
  simp [V1.CompletionLibrary.names, eq_comm]

/-- What protobuf makes of lists: a message is as long in whatever order its
lists are, and each of the names in a list takes a tag, a length and its
letters. -/
structure ProstDiscovery.Lawful [ProstDiscovery] : Prop where
  library : ∀ w w' : V1.CompletionLibrary, w.Reorders w' → libraryLen w = libraryLen w'
  subjectPage : ∀ w w' : V1.CompletionSubjectPage, w.Reorders w' → subjectPageLen w = subjectPageLen w'
  names : ∀ (w : V1.CompletionLibrary), ∀ names ∈ w.names, "" ∉ names → 3 * names.length ≤ libraryLen w

/-! ## Decoders -/

/-- `From<DiscoveryError> for WireError`. -/
def ofDiscovery (error : DiscoveryError) : WireError :=
  match error with
  | .limitExceeded => .limitExceeded
  | .invalidMetadata => .invalidDiscovery
  | .invalidBehavior error => .invalidOperation error

/-- `?` on a `DiscoveryError` where a `WireError` is returned. -/
def fromDiscovery {α : Type} (x : Except DiscoveryError α) : Except WireError α := x.mapError ofDiscovery

@[simp] theorem fromDiscovery_ok {α : Type} {x : Except DiscoveryError α} {a : α} :
    fromDiscovery x = .ok a ↔ x = .ok a := mapError_ok

def Field.tryFrom (field : V1.CompletionSubjectField) : Except WireError Field := do
  let name ← fromModel (Name.new field.field)
  let group ← fromModel (Name.new field.group)
  let unitKinds ← decodeNames "discovery.unit_kinds" field.unitKinds
  pure { field := name, group, unitKinds, readable := field.readable, writable := field.writable }

def Library.tryFrom [ProstDiscovery] (library : V1.CompletionLibrary) : Except WireError Library := do
  reject (ProstDiscovery.libraryLen library > 256 * 1024 ∨ library.fields.length > maximumFields) .limitExceeded
  let account ← Identity.tryFrom (← required library.account "library.account")
  let behavior ← Behavior.tryFrom (← required library.behavior "library.behavior")
  let fields ← library.fields.mapM Field.tryFrom
  let decoded : Library := { account, behavior, fields }
  fromDiscovery (decoded.validate decoded.account)
  pure decoded

/-- The body of the map over the subjects in `Page::try_from`. -/
def Descriptor.tryFrom (descriptor : V1.CompletionSubjectDescriptor) : Except WireError Descriptor := do
  let subject ← Subject.tryFrom (← required descriptor.subject "descriptor.subject")
  let fields ← descriptor.fields.mapM Field.tryFrom
  pure { subject, fields }

def Page.tryFrom [ProstDiscovery] (page : V1.CompletionSubjectPage) : Except WireError Page := do
  reject (ProstDiscovery.subjectPageLen page > 1024 * 1024 ∨ page.subjects.length > maximumPageSize.toNat ∨
    ∃ subject ∈ page.subjects, subject.fields.length > maximumFields) .limitExceeded
  let library ← Library.tryFrom (← required page.library "page.library")
  let subjects ← page.subjects.mapM Descriptor.tryFrom
  pure { library, subjects, nextCursor := page.nextCursor }

def validateDiscoveryRequest (request : V1.DiscoverCompletionSubjectsRequest) :
    Except WireError V1.CompletionContext := do
  let context ← okOr request.context (.missing "discovery.context")
  reject (context.operationId.isEmpty ∨ context.operationId.length > 256) .invalidDiscovery
  fromDiscovery (validateRequest request.pageSize request.cursor)
  let sourceKey ← okOr context.sourceKey (.missing "discovery.source_key")
  (key sourceKey "discovery.source_key").mapError fun _ => .invalidDiscovery
  pure context

def validateCompletionLibrary [ProstDiscovery] (library : V1.CompletionLibrary) (account : Identity) :
    Except WireError Behavior := do
  let decoded ← Library.tryFrom library
  fromDiscovery (decoded.validate account)
  pure decoded.behavior

def validateCompletionSubjectPage [ProstDiscovery] (page : V1.CompletionSubjectPage)
    (request : V1.DiscoverCompletionSubjectsRequest) (account : Identity) : Except WireError Unit := do
  discard <| validateDiscoveryRequest request
  let decoded ← Page.tryFrom page
  fromDiscovery (decoded.validate account request.pageSize request.cursor)

/-! ## Spellings -/

def Field.spell (self : Field) : V1.CompletionSubjectField where
  field := self.field.value
  group := self.group.value
  unitKinds := self.unitKinds.toList.map (·.value)
  readable := self.readable
  writable := self.writable

def Library.spell (self : Library) : V1.CompletionLibrary where
  account := some self.account.into
  behavior := some self.behavior.into
  fields := self.fields.map Field.spell

def Descriptor.spell (self : Descriptor) : V1.CompletionSubjectDescriptor where
  subject := some self.subject.into
  fields := self.fields.map Field.spell

def Page.spell (self : Page) : V1.CompletionSubjectPage where
  library := some self.library.spell
  subjects := self.subjects.map Descriptor.spell
  nextCursor := self.nextCursor

/-! ## Fields and behaviors -/

theorem Field.tryFrom_ok {w : V1.CompletionSubjectField} {f : Field} : Field.tryFrom w = .ok f ↔
    f.field.value = w.field ∧ f.group.value = w.group ∧
      decodeNames "discovery.unit_kinds" w.unitKinds = .ok f.unitKinds ∧ f.readable = w.readable ∧
      f.writable = w.writable := by
  simp only [tryFrom, bind_ok, fromModel_ok, Name.new_ok, pure_ok]
  refine ⟨fun h => ?_, fun h => ?_⟩
  · obtain ⟨_, hf, _, hg, _, hu, rfl⟩ := h
    exact ⟨hf, hg, hu, rfl, rfl⟩
  · obtain ⟨hf, hg, hu, hr, hw⟩ := h
    exact ⟨_, hf, _, hg, _, hu, by rw [← hr, ← hw]⟩

theorem Field.tryFrom_respects : Respects Field.tryFrom V1.CompletionSubjectField.Reorders where
  ok {w w' f} h hd := by
    rw [tryFrom_ok] at hd ⊢
    obtain ⟨hf, hg, hu, hr, hw⟩ := hd
    exact ⟨hf.trans h.field, hg.trans h.group, decodeNames_respects.ok h.unitKinds hu, hr.trans h.readable,
      hw.trans h.writable⟩

theorem Field.tryFrom_determines : Determines Field.tryFrom V1.CompletionSubjectField.Reorders where
  rel {w w' f} hd hd' := by
    rw [tryFrom_ok] at hd hd'
    obtain ⟨hf, hg, hu, hr, hw⟩ := hd
    obtain ⟨hf', hg', hu', hr', hw'⟩ := hd'
    exact ⟨hf.symm.trans hf', hg.symm.trans hg', decodeNames_determines.rel hu hu', hr.symm.trans hr',
      hw.symm.trans hw'⟩

/-- A field is read back unless it has too many kinds of unit. -/
theorem Field.tryFrom_spell (f : Field) :
    Returns Field.tryFrom Field.spell (f.unitKinds.len ≤ maximumCollectionItems) f := by
  intro f'
  simp only [tryFrom, spell, bind_ok, fromModel_new_value, Except.ok.injEq, exists_eq_left', decodeNames_encode,
    pure_ok, and_assoc, exists_and_left]

/-- The fields read from a message are read again from what they spell. -/
theorem Field.mapM_tryFrom_reorders {w : List V1.CompletionSubjectField} {fields : List Field}
    (h : w.mapM Field.tryFrom = .ok fields) :
    Shuffled V1.CompletionSubjectField.Reorders w (fields.map Field.spell) := by
  have hs : (fields.map Field.spell).mapM Field.tryFrom = .ok fields := by
    rw [mapM_ok, List.forall₂_map_left_iff, List.forall₂_same]
    intro f hm
    obtain ⟨wf, _, hwf⟩ := mapM_ok_mem h hm
    exact f.tryFrom_spell.ok (decodeNames_yields.of_ok (tryFrom_ok.mp hwf).2.2.1)
  exact shuffled_of_forall₂ ((determines_list tryFrom_determines).rel h hs)

/-- A behavior whose lists are no longer than a collection may be. -/
structure Behavior.Portable (b : Behavior) : Prop where
  subjectRoles : b.subjectRoles.len ≤ maximumCollectionItems
  units : b.units.len ≤ maximumCollectionItems
  operations : ∀ o ∈ b.operations, o.Portable

theorem OperationCapability.tryFrom_returns (o : OperationCapability) :
    Returns OperationCapability.tryFrom OperationCapability.into o.Portable o := by
  have hp : Returns (decodeSet decodeProtectionKind "capability.protection")
      (fun s => s.toList.map encodeProtectionKind) (o.protection.len ≤ maximumCollectionItems) o.protection := decodeSet_returns decodeProtectionKind_encode
  intro o'
  refine ⟨fun h => ?_, fun h => ?_⟩
  · obtain ⟨hc, hf, hprotection, hd, hr⟩ := tryFrom_ok.mp h
    obtain ⟨hfl, hfe⟩ := decodeNames_encode.mp hf
    obtain ⟨hpl, hpe⟩ := (hp _).mp hprotection
    obtain ⟨hrl, hre⟩ := decodeNames_encode.mp hr
    refine ⟨⟨hfl, hpl, hrl⟩, ?_⟩
    have hclass := Name.eq_of_value hc
    cases o
    cases o'
    simp_all [into]
  · obtain ⟨h, rfl⟩ := h
    exact OperationCapability.tryFrom_into h

/-- A behavior is read back where it is valid and its lists are not too
long. -/
theorem Behavior.tryFrom_returns (b : Behavior) :
    Returns Behavior.tryFrom Behavior.into (b.Valid ∧ b.Portable) b := by
  have ho := returns_list fun o (_ : o ∈ b.operations) => o.tryFrom_returns
  intro b'
  rw [tryFrom_ok]
  simp only [into, ho _, decodeNames_encode]
  refine ⟨fun h => ?_, fun h => ?_⟩
  · obtain ⟨hrev, ⟨hops, he⟩, ⟨hroles, hre⟩, ⟨hunits, hue⟩, hv⟩ := h
    have hb : b = b' := by
      cases b
      cases b'
      simp_all
    exact ⟨⟨hb ▸ hv, hroles, hunits, hops⟩, hb⟩
  · obtain ⟨⟨hv, hp⟩, rfl⟩ := h
    exact ⟨rfl, ⟨hp.operations, rfl⟩, ⟨hp.subjectRoles, rfl⟩, ⟨hp.units, rfl⟩, hv⟩

theorem Name.empty_notMem (names : BTreeSet Name) : "" ∉ names.toList.map (·.value) := by
  intro h
  obtain ⟨name, _, hempty⟩ := List.mem_map.mp h
  have haccepted := name.accepted
  rw [hempty] at haccepted
  exact absurd haccepted (by decide)

theorem ProtectionKind.len_le (s : BTreeSet ProtectionKind) : s.len ≤ 3 :=
  BTreeSet.len_le_of_subset (l := [.conditional, .monotoneMerge, .bestEffort]) fun k _ => by cases k <;> simp

theorem Behavior.Valid.shuffle {b b' : Behavior} (h : b.Valid) (hrev : b.revision = b'.revision)
    (hops : b.operations.Perm b'.operations) : b'.Valid where
  revision := hrev ▸ h.revision
  bounded := hops.length_eq ▸ h.bounded
  classes := (hops.map _).nodup_iff.mp h.classes
  declares o ho := h.declares o (hops.mem_iff.mpr ho)

/-! ## Subjects -/

theorem Subject.tryFrom_reorders {w : V1.CompletionSubject} {s : Subject} (h : Subject.tryFrom w = .ok s) :
    w.Reorders s.into := by
  simp only [tryFrom, bind_ok, required_ok, fromModel_ok, Name.new_ok, pure_ok] at h
  obtain ⟨wi, hwi, i, hi, classifications, hc, role, hrole, rfl⟩ := h
  have hlen := decodeNames_yields.of_ok hc
  have hp := decodeNames_determines.rel hc (decodeNames_encode.mpr ⟨hlen, rfl⟩)
  have he : (⟨i, classifications, role, w.label⟩ : Subject).into =
      { w with classifications := classifications.toList.map (·.value) } := by
    rw [into, Identity.tryFrom_restores.of_ok hi, hrole, ← hwi]
  rw [he]
  exact .classifications hp

theorem Descriptor.tryFrom_ok {w : V1.CompletionSubjectDescriptor} {d : Descriptor} : Descriptor.tryFrom w = .ok d ↔
    (∃ subject, w.subject = some subject ∧ Subject.tryFrom subject = .ok d.subject) ∧
      w.fields.mapM Field.tryFrom = .ok d.fields := by
  simp only [tryFrom, bind_ok, required_ok, pure_ok]
  refine ⟨fun h => ?_, fun h => ?_⟩
  · obtain ⟨ws, hws, s, hs, fields, hf, rfl⟩ := h
    exact ⟨⟨ws, hws, hs⟩, hf⟩
  · obtain ⟨⟨ws, hws, hs⟩, hf⟩ := h
    exact ⟨ws, hws, _, hs, _, hf, rfl⟩

theorem Descriptor.tryFrom_carries :
    Carries Descriptor.tryFrom V1.CompletionSubjectDescriptor.Reorders Descriptor.Reorders where
  ok {w w' d} h hd := by
    obtain ⟨⟨ws, hws, hs⟩, hf⟩ := tryFrom_ok.mp hd
    obtain ⟨ws', hws', hr⟩ := rel_some h.subject hws
    obtain ⟨fields, hf', hpf⟩ := (carries_list Field.tryFrom_respects.carries).ok h.fields hf
    exact ⟨⟨d.subject, fields⟩, tryFrom_ok.mpr ⟨⟨ws', hws', Subject.tryFrom_respects.ok hr hs⟩, hf'⟩, rfl,
      shuffled_eq hpf⟩

theorem Descriptor.tryFrom_reorders {w : V1.CompletionSubjectDescriptor} {d : Descriptor}
    (h : Descriptor.tryFrom w = .ok d) : w.Reorders d.spell := by
  obtain ⟨⟨ws, hws, hs⟩, hf⟩ := tryFrom_ok.mp h
  refine ⟨?_, Field.mapM_tryFrom_reorders hf⟩
  rw [hws]
  exact .some (Subject.tryFrom_reorders hs)

/-! ## Libraries -/

variable [ProstDiscovery]

structure Library.SentAs (w : V1.CompletionLibrary) (l : Library) : Prop where
  account : ∃ account, w.account = some account ∧ Identity.tryFrom account = .ok l.account
  behavior : ∃ behavior, w.behavior = some behavior ∧ Behavior.tryFrom behavior = .ok l.behavior
  fields : w.fields.mapM Field.tryFrom = .ok l.fields

/-- A library is decoded where its message is not too long and it is valid
for the account it names. -/
theorem Library.tryFrom_ok {w : V1.CompletionLibrary} {l : Library} : Library.tryFrom w = .ok l ↔
    ProstDiscovery.libraryLen w ≤ 256 * 1024 ∧ l.SentAs w ∧ l.Valid l.account := by
  simp only [tryFrom, bind_ok, reject_ok, not_or, gt_iff_lt, Nat.not_lt, exists_const, required_ok, fromDiscovery_ok,
    validate_ok, pure_ok]
  refine ⟨fun h => ?_, fun h => ?_⟩
  · obtain ⟨⟨hlen, _⟩, wa, hwa, a, ha, wb, hwb, b, hb, fields, hf, hv, rfl⟩ := h
    exact ⟨hlen, ⟨⟨wa, hwa, ha⟩, ⟨wb, hwb, hb⟩, hf⟩, hv⟩
  · obtain ⟨hlen, ⟨⟨wa, hwa, ha⟩, ⟨wb, hwb, hb⟩, hf⟩, hv⟩ := h
    have hbound : w.fields.length ≤ maximumFields := by
      rw [(mapM_ok.mp hf).length_eq]
      exact hv.bounded
    exact ⟨⟨hlen, hbound⟩, wa, hwa, _, ha, wb, hwb, _, hb, _, hf, hv, rfl⟩

/-- Each list of a library takes room in its message. -/
theorem Library.portable (hprost : ProstDiscovery.Lawful) {l : Library}
    (h : ProstDiscovery.libraryLen l.spell ≤ 256 * 1024) :
    l.behavior.Portable ∧ ∀ f ∈ l.fields, f.unitKinds.len ≤ maximumCollectionItems := by
  have hmax : maximumCollectionItems = 100000 := rfl
  have hroom : ∀ names : BTreeSet Name, names.toList.map (·.value) ∈ l.spell.names →
      names.len ≤ maximumCollectionItems := by
    intro names hm
    have hle := hprost.names l.spell _ hm (Name.empty_notMem names)
    rw [List.length_map] at hle
    have hlen : names.len = names.toList.length := rfl
    omega
  have hbehavior : l.spell.behavior = some l.behavior.into := rfl
  refine ⟨⟨hroom _ ?_, hroom _ ?_, fun o ho => ?_⟩, fun f hf => hroom _ ?_⟩
  · exact V1.CompletionLibrary.mem_names.mpr (.inl ⟨_, hbehavior, .inl rfl⟩)
  · exact V1.CompletionLibrary.mem_names.mpr (.inl ⟨_, hbehavior, .inr (.inl rfl)⟩)
  · have hm : o.into ∈ l.behavior.into.operations := List.mem_map_of_mem ho
    have hnames : ∀ names, names = o.into.effectFields ∨ names = o.into.reconciliation → names ∈ l.spell.names :=
      fun names hn => V1.CompletionLibrary.mem_names.mpr (.inl ⟨_, hbehavior, .inr (.inr ⟨_, hm, hn⟩)⟩)
    have hkinds := ProtectionKind.len_le o.protection
    exact ⟨hroom _ (hnames _ (.inl rfl)), by omega, hroom _ (hnames _ (.inr rfl))⟩
  · exact V1.CompletionLibrary.mem_names.mpr (.inr ⟨_, List.mem_map_of_mem hf, rfl⟩)

/-- A library is read back where it is valid and its message is not too
long: no list that fits in it is longer than a collection may be. -/
theorem Library.tryFrom_spell (hprost : ProstDiscovery.Lawful) (l : Library) : Returns Library.tryFrom Library.spell
    (l.Valid l.account ∧ ProstDiscovery.libraryLen l.spell ≤ 256 * 1024) l := by
  intro l'
  rw [tryFrom_ok]
  refine ⟨fun h => ?_, fun h => ?_⟩
  · obtain ⟨hlen, ⟨⟨_, ha, haccount⟩, ⟨_, hb, hbehavior⟩, hfields⟩, hv⟩ := h
    cases ha
    cases hb
    rw [Identity.tryFrom_into, Except.ok.injEq] at haccount
    obtain ⟨_, hb⟩ := (l.behavior.tryFrom_returns _).mp hbehavior
    obtain ⟨_, hf⟩ := (returns_list (fun f _ => f.tryFrom_spell) _).mp hfields
    have he : l = l' := by
      cases l
      cases l'
      simp_all
    exact ⟨⟨he ▸ hv, hlen⟩, he⟩
  · obtain ⟨⟨hv, hlen⟩, rfl⟩ := h
    obtain ⟨hb, hf⟩ := portable hprost hlen
    exact ⟨hlen, ⟨⟨_, rfl, Identity.tryFrom_into _⟩, ⟨_, rfl, l.behavior.tryFrom_returns.ok ⟨hv.behavior, hb⟩⟩,
      (returns_list fun f _ => f.tryFrom_spell).ok hf⟩, hv⟩

/-- A message is the spelling of what it is decoded as, but for the order of
its lists. -/
theorem Library.tryFrom_reorders {w : V1.CompletionLibrary} {l : Library} (h : Library.tryFrom w = .ok l) :
    w.Reorders l.spell := by
  obtain ⟨hlen, ⟨⟨wa, hwa, ha⟩, ⟨wb, hwb, hb⟩, hf⟩, hv⟩ := tryFrom_ok.mp h
  have hd := Behavior.tryFrom_determines.rel hb (Behavior.tryFrom_into hb)
  refine ⟨?_, ?_, Field.mapM_tryFrom_reorders hf⟩
  · rw [hwa, ← Identity.tryFrom_restores.of_ok ha]
    rfl
  · rw [hwb]
    exact .some ⟨hd.revision, hd.subjectRoles, hd.units, shuffled_of_forall₂ hd.operations⟩

/-- A library is decoded from its message in any order, its operations and
fields in that order. -/
theorem Library.tryFrom_carries (hprost : ProstDiscovery.Lawful) :
    Carries Library.tryFrom V1.CompletionLibrary.Reorders Library.Reorders where
  ok {w w' l} h hd := by
    obtain ⟨hlen, ⟨⟨wa, hwa, ha⟩, ⟨wb, hwb, hb⟩, hf⟩, hv⟩ := tryFrom_ok.mp hd
    obtain ⟨wb', hwb', hs⟩ := rel_some h.behavior hwb
    obtain ⟨hrev, hops, hroles, hunits, _⟩ := Behavior.tryFrom_ok.mp hb
    obtain ⟨ops, hops', hp⟩ := (carries_list OperationCapability.tryFrom_respects.carries).ok hs.operations hops
    obtain ⟨fields, hf', hpf⟩ := (carries_list Field.tryFrom_respects.carries).ok h.fields hf
    let l' : Library := { l with behavior := { l.behavior with operations := ops }, fields }
    have hr : l.Reorders l' := ⟨rfl, rfl, rfl, rfl, shuffled_eq hp, shuffled_eq hpf⟩
    have hb' : Behavior.tryFrom wb' = .ok l'.behavior :=
      Behavior.tryFrom_ok.mpr ⟨hrev.trans hs.revision, hops', decodeNames_respects.ok hs.subjectRoles hroles,
        decodeNames_respects.ok hs.units hunits, hv.behavior.shuffle rfl (shuffled_eq hp)⟩
    have hlen' : ProstDiscovery.libraryLen w' ≤ 256 * 1024 := hprost.library w w' h ▸ hlen
    exact ⟨l', tryFrom_ok.mpr ⟨hlen', ⟨⟨wa, h.account ▸ hwa, ha⟩, ⟨wb', hwb', hb'⟩, hf'⟩, hv.reorder hr⟩, hr⟩

/-! ## Pages -/

structure Page.SentAs (w : V1.CompletionSubjectPage) (p : Page) : Prop where
  library : ∃ library, w.library = some library ∧ Library.tryFrom library = .ok p.library
  subjects : w.subjects.mapM Descriptor.tryFrom = .ok p.subjects
  nextCursor : p.nextCursor = w.nextCursor

theorem Page.tryFrom_ok {w : V1.CompletionSubjectPage} {p : Page} : Page.tryFrom w = .ok p ↔
    (ProstDiscovery.subjectPageLen w ≤ 1024 * 1024 ∧ w.subjects.length ≤ maximumPageSize.toNat ∧
      ∀ subject ∈ w.subjects, subject.fields.length ≤ maximumFields) ∧ p.SentAs w := by
  simp only [tryFrom, bind_ok, reject_ok, not_or, not_exists, not_and, gt_iff_lt, Nat.not_lt, exists_const, required_ok,
    pure_ok]
  refine and_congr_right fun _ => ⟨fun h => ?_, fun h => ?_⟩
  · obtain ⟨wl, hwl, l, hl, subjects, hs, rfl⟩ := h
    exact ⟨⟨wl, hwl, hl⟩, hs, rfl⟩
  · obtain ⟨⟨wl, hwl, hl⟩, hs, hn⟩ := h
    exact ⟨wl, hwl, _, hl, _, hs, by rw [← hn]⟩

/-- What an accepted page's message is: the bounds the decoder puts on its
lists are those of the page. -/
theorem validateCompletionSubjectPage_ok {w : V1.CompletionSubjectPage} {request : V1.DiscoverCompletionSubjectsRequest}
    {account : Identity} {u : Unit} : validateCompletionSubjectPage w request account = .ok u ↔
      (∃ context, validateDiscoveryRequest request = .ok context) ∧ ProstDiscovery.subjectPageLen w ≤ 1024 * 1024 ∧
        ∃ p : Page, p.SentAs w ∧ p.Accepted account request.pageSize request.cursor := by
  simp only [validateCompletionSubjectPage, bind_ok, discard_ok, exists_const, fromDiscovery_ok, Page.validate_ok,
    Page.tryFrom_ok]
  refine and_congr_right fun _ => ⟨fun h => ?_, fun h => ?_⟩
  · obtain ⟨p, ⟨⟨hlen, _⟩, hs⟩, ha⟩ := h
    exact ⟨hlen, p, hs, ha⟩
  · obtain ⟨hlen, p, hs, ha⟩ := h
    have hf := mapM_ok.mp hs.subjects
    refine ⟨p, ⟨⟨hlen, ?_, fun w' hw' => ?_⟩, hs⟩, ha⟩
    · have hsize := UInt32.le_iff_toNat_le.mp ha.sized.2
      rw [hf.length_eq]
      exact Nat.le_trans ha.bounded hsize
    · obtain ⟨d, hd, hwd⟩ := forall₂_mem_right hf.flip hw'
      rw [(mapM_ok.mp (Descriptor.tryFrom_ok.mp hwd).2).length_eq]
      exact (ha.subjects d hd).bounded

/-! ## Verdicts -/

theorem Page.tryFrom_reorders {w : V1.CompletionSubjectPage} {p : Page} (h : p.SentAs w) : w.Reorders p.spell := by
  obtain ⟨⟨wl, hwl, hl⟩, hs, hn⟩ := h
  refine ⟨?_, ?_, hn.symm⟩
  · rw [hwl]
    exact .some (Library.tryFrom_reorders hl)
  · refine shuffled_of_forall₂ ?_
    rw [spell, List.forall₂_map_right_iff]
    exact (mapM_ok.mp hs).imp fun _ _ => Descriptor.tryFrom_reorders

theorem Page.sentAs_carries (hprost : ProstDiscovery.Lawful) {w w' : V1.CompletionSubjectPage} {p : Page}
    (h : w.Reorders w') (hp : p.SentAs w) : ∃ p', p'.SentAs w' ∧ p.Reorders p' := by
  obtain ⟨⟨wl, hwl, hl⟩, hs, hn⟩ := hp
  obtain ⟨wl', hwl', hr⟩ := rel_some h.library hwl
  obtain ⟨l', hl', hlr⟩ := (Library.tryFrom_carries hprost).ok hr hl
  obtain ⟨subjects, hs', hsr⟩ := (carries_list Descriptor.tryFrom_carries).ok h.subjects hs
  exact ⟨⟨l', subjects, p.nextCursor⟩, ⟨⟨wl', hwl', hl'⟩, hs', hn.trans h.nextCursor⟩, hlr, hsr, rfl⟩

/-- A page within the limits is read from what it spells. -/
theorem Page.sentAs_spell (hprost : ProstDiscovery.Lawful) {p : Page} {account : Identity} {pageSize : UInt32}
    {cursor : Option String} (h : p.Accepted account pageSize cursor)
    (hl : ProstDiscovery.libraryLen p.library.spell ≤ 256 * 1024)
    (hc : ∀ d ∈ p.subjects, d.subject.classifications.len ≤ maximumCollectionItems) : p.SentAs p.spell := by
  have hv : p.library.Valid p.library.account := h.library.inAccount ▸ h.library
  refine ⟨⟨_, rfl, (p.library.tryFrom_spell hprost).ok ⟨hv, hl⟩⟩, ?_, rfl⟩
  rw [spell, mapM_ok, List.forall₂_map_left_iff, List.forall₂_same]
  intro d hd
  refine Descriptor.tryFrom_ok.mpr ⟨⟨_, rfl, d.subject.tryFrom_into.ok (hc d hd)⟩, ?_⟩
  refine (returns_list fun f _ => f.tryFrom_spell).ok fun f hf => ?_
  -- a subject's units are the library's, which fit in its message
  obtain ⟨declared, hm, hnarrow⟩ := (h.subjects d hd).narrows f hf
  exact Nat.le_trans (BTreeSet.len_le_of_subset hnarrow.unitKinds) ((Library.portable hprost hl).2 declared hm)

theorem validateCompletionLibrary_ok {w : V1.CompletionLibrary} {account : Identity} {b : Behavior} :
    validateCompletionLibrary w account = .ok b ↔
      ∃ l, Library.tryFrom w = .ok l ∧ l.Valid account ∧ l.behavior = b := by
  simp only [validateCompletionLibrary, bind_ok, fromDiscovery_ok, Library.validate_ok, exists_const, pure_ok]

/-- A message in the order of its spelling or another is decoded where it is
not too long, with the behavior that its own order gives. -/
theorem Library.tryFrom_of_reorders (hprost : ProstDiscovery.Lawful) {w : V1.CompletionLibrary} {l : Library}
    {account : Identity} (hlen : ProstDiscovery.libraryLen w ≤ 256 * 1024) (h : w.Reorders l.spell)
    (hv : l.Valid account) : ∃ l', Library.tryFrom w = .ok l' ∧ l'.Valid account ∧
      ∀ wb, w.behavior = some wb → wb.Reorders l.behavior.into → l'.behavior = l.behavior := by
  have hspell : ProstDiscovery.libraryLen l.spell ≤ 256 * 1024 := hprost.library _ _ h ▸ hlen
  have hd := (l.tryFrom_spell hprost).ok ⟨hv.inAccount ▸ hv, hspell⟩
  obtain ⟨l', hl', hr⟩ := (Library.tryFrom_carries hprost).ok h.symm hd
  refine ⟨l', hl', hv.reorder hr, fun wb hwb hordered => ?_⟩
  obtain ⟨wb', hwb', hb'⟩ := (tryFrom_ok.mp hl').2.1.behavior
  cases hwb.symm.trans hwb'
  obtain ⟨_, hinto, hb⟩ := (tryFrom_ok.mp hd).2.1.behavior
  cases hinto
  exact Except.ok.inj (hb'.symm.trans (Behavior.tryFrom_respects.ok hordered.symm hb))

/-- **Which libraries are taken.** A message is accepted for an account
exactly where it spells, in some order of its lists, a library valid for the
account, in at most 256 KiB. What is returned is that library's behavior,
with its operations in the order of the message. The limits on the lists in
it never decide. -/
theorem validateCompletionLibrary_iff (hprost : ProstDiscovery.Lawful) (w : V1.CompletionLibrary)
    (account : Identity) :
    ((∃ b, validateCompletionLibrary w account = .ok b) ↔
      ProstDiscovery.libraryLen w ≤ 256 * 1024 ∧
        ∃ l : Library, w.Reorders l.spell ∧ l.validate account = .ok ()) ∧
    ∀ b, validateCompletionLibrary w account = .ok b ↔
      ProstDiscovery.libraryLen w ≤ 256 * 1024 ∧
        (∃ l : Library, w.Reorders l.spell ∧ l.validate account = .ok () ∧ l.behavior = b) ∧
        ∃ wb, w.behavior = some wb ∧ wb.Reorders b.into := by
  simp only [validateCompletionLibrary_ok, Library.validate_ok]
  refine ⟨⟨fun h => ?_, fun h => ?_⟩, fun b => ⟨fun h => ?_, fun h => ?_⟩⟩
  · obtain ⟨b, l, hl, hv, _⟩ := h
    exact ⟨(Library.tryFrom_ok.mp hl).1, l, Library.tryFrom_reorders hl, hv⟩
  · obtain ⟨hlen, l, hr, hv⟩ := h
    obtain ⟨l', hl', hv', _⟩ := Library.tryFrom_of_reorders hprost hlen hr hv
    exact ⟨_, l', hl', hv', rfl⟩
  · obtain ⟨l, hl, hv, rfl⟩ := h
    obtain ⟨wb, hwb, hb⟩ := (Library.tryFrom_ok.mp hl).2.1.behavior
    exact ⟨(Library.tryFrom_ok.mp hl).1, ⟨l, Library.tryFrom_reorders hl, hv, rfl⟩, wb, hwb,
      Behavior.tryFrom_determines.rel hb (Behavior.tryFrom_into hb)⟩
  · obtain ⟨hlen, ⟨l, hr, hv, rfl⟩, wb, hwb, hordered⟩ := h
    obtain ⟨l', hl', hv', hsame⟩ := Library.tryFrom_of_reorders hprost hlen hr hv
    exact ⟨l', hl', hv', hsame wb hwb hordered⟩

theorem validateCompletionSubjectPage_respects (hprost : ProstDiscovery.Lawful) {w w' : V1.CompletionSubjectPage}
    {request : V1.DiscoverCompletionSubjectsRequest} {account : Identity} (h : w.Reorders w')
    (hw : validateCompletionSubjectPage w request account = .ok ()) :
    validateCompletionSubjectPage w' request account = .ok () := by
  obtain ⟨hr, hlen, p, hs, ha⟩ := validateCompletionSubjectPage_ok.mp hw
  obtain ⟨p', hs', hp⟩ := Page.sentAs_carries hprost h hs
  exact validateCompletionSubjectPage_ok.mpr ⟨hr, hprost.subjectPage _ _ h ▸ hlen, p', hs', ha.reorder hp⟩

/-- **Which pages are taken.** A message is accepted for a valid request
exactly where it spells, in some order of its lists, a page that
`Page::validate` accepts, within 1 MiB of which 256 KiB are the library's and
with at most 100000 classifications a subject. So both sides of the wire
judge one page alike, however its lists are ordered. -/
theorem validateCompletionSubjectPage_iff (hprost : ProstDiscovery.Lawful) (w : V1.CompletionSubjectPage)
    (request : V1.DiscoverCompletionSubjectsRequest) (account : Identity) :
    (validateCompletionSubjectPage w request account = .ok () ↔
      (∃ context, validateDiscoveryRequest request = .ok context) ∧ ProstDiscovery.subjectPageLen w ≤ 1024 * 1024 ∧
        ∃ p : Page, w.Reorders p.spell ∧ p.validate account request.pageSize request.cursor = .ok () ∧
          ProstDiscovery.libraryLen p.library.spell ≤ 256 * 1024 ∧
          ∀ d ∈ p.subjects, d.subject.classifications.len ≤ 100000) ∧
    ∀ w', w.Reorders w' → (validateCompletionSubjectPage w request account = .ok () ↔
      validateCompletionSubjectPage w' request account = .ok ()) := by
  refine ⟨⟨fun h => ?_, fun h => ?_⟩, fun w' hr => ⟨validateCompletionSubjectPage_respects hprost hr,
    validateCompletionSubjectPage_respects hprost hr.symm⟩⟩
  · obtain ⟨hr, hlen, p, hs, ha⟩ := validateCompletionSubjectPage_ok.mp h
    obtain ⟨wl, hwl, hl⟩ := hs.library
    have hllen := (Library.tryFrom_ok.mp hl).1
    refine ⟨hr, hlen, p, Page.tryFrom_reorders hs, Page.validate_ok.mpr ha, ?_, fun d hd => ?_⟩
    · rwa [← hprost.library _ _ (Library.tryFrom_reorders hl)]
    · obtain ⟨wd, _, hwd⟩ := mapM_ok_mem hs.subjects hd
      obtain ⟨ws, _, hws⟩ := (Descriptor.tryFrom_ok.mp hwd).1
      exact Subject.tryFrom_yields.of_ok hws
  · obtain ⟨hr, hlen, p, hw, hv, hl, hc⟩ := h
    rw [Page.validate_ok] at hv
    obtain ⟨p', hs', hp⟩ := Page.sentAs_carries hprost hw.symm (Page.sentAs_spell hprost hv hl hc)
    exact validateCompletionSubjectPage_ok.mpr ⟨hr, hlen, p', hs', hv.reorder hp⟩

end ProviderSdk
