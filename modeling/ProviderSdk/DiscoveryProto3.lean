/-
The encodings of the discovery messages in the proto3 wire format, for the
sake of their length, which is what `prost::Message::encoded_len` returns.

The length of a message is that of its parts in whatever order they are
listed (`subjectPage_reorders`), and every name listed takes at least three
bytes of it (`le_repeated_utf8`). So it is as the decoders rely on
(`Proto3.discovery_lawful`).
-/
import ProviderSdk.DiscoveryWire
import ProviderSdk.Proto3

namespace ProviderSdk

open Codec

namespace Proto3

open V1

/-- A `repeated` field of numbers, which are packed. -/
def packed (tag : Nat) (values : List Int32) : List UInt8 :=
  bytes tag (values.flatMap fun value => varint (value.toInt % 2 ^ 64).toNat)

def completionIdentity (i : CompletionIdentity) : List UInt8 := string 1 i.namespaceName ++ string 2 i.value

def completionSubject (s : CompletionSubject) : List UInt8 :=
  message 1 completionIdentity s.identity ++ repeated 2 utf8 s.classifications ++ string 3 s.role ++ string 4 s.label

def operationCapability (c : CompletionOperationCapability) : List UInt8 :=
  string 1 c.operationClass ++ repeated 2 utf8 c.effectFields ++ packed 3 c.protection ++
    number 4 c.deduplication.toNat ++ repeated 5 utf8 c.reconciliation

def behavior (b : CompletionBehavior) : List UInt8 :=
  string 1 b.revision ++ repeated 2 utf8 b.subjectRoles ++ repeated 3 utf8 b.units ++
    repeated 4 operationCapability b.operations

def subjectField (f : CompletionSubjectField) : List UInt8 :=
  string 1 f.field ++ string 2 f.group ++ repeated 3 utf8 f.unitKinds ++ number 4 f.readable.toNat ++
    number 5 f.writable.toNat

def library (l : CompletionLibrary) : List UInt8 :=
  message 1 completionIdentity l.account ++ message 2 behavior l.behavior ++ repeated 3 subjectField l.fields

def subjectDescriptor (d : CompletionSubjectDescriptor) : List UInt8 :=
  message 1 completionSubject d.subject ++ repeated 2 subjectField d.fields

/-- An `optional` text is written whenever it is there. -/
def subjectPage (p : CompletionSubjectPage) : List UInt8 :=
  message 1 library p.library ++ repeated 2 subjectDescriptor p.subjects ++ message 3 utf8 p.nextCursor

end Proto3

/-! ## Lengths -/

namespace Proto3

open V1

variable {α : Type} {encode : α → List UInt8} {R : α → α → Prop}

theorem length_delimited (tag : Nat) {content content' : List UInt8} (h : content.length = content'.length) :
    (delimited tag content).length = (delimited tag content').length := by
  simp only [delimited, List.length_append, h]

theorem length_bytes {tag : Nat} {value value' : List UInt8} (h : value.length = value'.length) :
    (bytes tag value).length = (bytes tag value').length := by
  have hnil : value = [] ↔ value' = [] := by rw [← List.length_eq_zero_iff, h, List.length_eq_zero_iff]
  by_cases hv : value = []
  · rw [bytes, bytes, if_pos hv, if_pos (hnil.mp hv)]
  · rw [bytes, bytes, if_neg hv, if_neg (hnil.not.mp hv), length_delimited tag h]

theorem length_message {tag : Nat} (h : ∀ w w', R w w' → (encode w).length = (encode w').length) {o o' : Option α}
    (ho : Option.Rel R o o') : (message tag encode o).length = (message tag encode o').length := by
  cases ho with
  | none => rfl
  | some hr => exact length_delimited tag (h _ _ hr)

theorem length_flatMap_perm {l l' : List α} (h : l.Perm l') : (l.flatMap encode).length = (l'.flatMap encode).length :=
  (h.flatMap_right encode).length_eq

theorem length_repeated (tag : Nat) (h : ∀ w w', R w w' → (encode w).length = (encode w').length) {l l' : List α}
    (hl : Shuffled R l l') : (repeated tag encode l).length = (repeated tag encode l').length := by
  obtain ⟨mid, hp, hf⟩ := hl
  refine (length_flatMap_perm hp).trans ?_
  clear hp
  unfold repeated
  induction hf with
  | nil => rfl
  | cons hw _ ih =>
    have hd := length_delimited tag (h _ _ hw)
    rw [List.flatMap_cons, List.flatMap_cons, List.length_append, List.length_append, ih, hd]

theorem operationCapability_reorders (w w' : CompletionOperationCapability) (h : w.Reorders w') :
    (operationCapability w).length = (operationCapability w').length := by
  simp only [operationCapability, List.length_append, h.operationClass, h.deduplication, packed,
    length_bytes (length_flatMap_perm h.protection), repeated, length_flatMap_perm h.effectFields,
    length_flatMap_perm h.reconciliation]

theorem behavior_shuffles (w w' : CompletionBehavior) (h : w.Shuffles w') :
    (behavior w).length = (behavior w').length := by
  have ho := length_repeated 4 operationCapability_reorders h.operations
  simp only [behavior, List.length_append, h.revision, ho]
  simp only [repeated, length_flatMap_perm h.subjectRoles, length_flatMap_perm h.units]

theorem subjectField_reorders (w w' : CompletionSubjectField) (h : w.Reorders w') :
    (subjectField w).length = (subjectField w').length := by
  simp only [subjectField, List.length_append, h.field, h.group, h.readable, h.writable, repeated,
    length_flatMap_perm h.unitKinds]

theorem library_reorders (w w' : CompletionLibrary) (h : w.Reorders w') :
    (library w).length = (library w').length := by
  simp only [library, List.length_append, h.account, length_message behavior_shuffles h.behavior,
    length_repeated 3 subjectField_reorders h.fields]

theorem completionSubject_reorders (w w' : CompletionSubject) (h : w.Reorders w') :
    (completionSubject w).length = (completionSubject w').length := by
  obtain ⟨hp⟩ := h
  simp only [completionSubject, List.length_append, repeated, length_flatMap_perm hp]

theorem subjectDescriptor_reorders (w w' : CompletionSubjectDescriptor) (h : w.Reorders w') :
    (subjectDescriptor w).length = (subjectDescriptor w').length := by
  simp only [subjectDescriptor, List.length_append, length_message completionSubject_reorders h.subject,
    length_repeated 2 subjectField_reorders h.fields]

theorem subjectPage_reorders {w w' : CompletionSubjectPage} (h : w.Reorders w') :
    (subjectPage w).length = (subjectPage w').length := by
  simp only [subjectPage, List.length_append, length_message library_reorders h.library,
    length_repeated 2 subjectDescriptor_reorders h.subjects, h.nextCursor]

/-! ### What a list takes -/

theorem varint_pos (n : Nat) : 1 ≤ (varint n).length := by
  unfold varint
  split <;> simp

/-- A field takes its content and two bytes at least. -/
theorem le_delimited (tag : Nat) (content : List UInt8) : content.length + 2 ≤ (delimited tag content).length := by
  have ht := varint_pos (tag * 8 + 2)
  have hl := varint_pos content.length
  simp only [delimited, List.length_append]
  omega

theorem le_message (tag : Nat) (encode : α → List UInt8) {o : Option α} {a : α} (h : o = some a) :
    (encode a).length ≤ (message tag encode o).length := by
  subst h
  exact Nat.le_trans (Nat.le_add_right _ 2) (le_delimited tag (encode a))

theorem le_repeated (tag : Nat) (encode : α → List UInt8) {l : List α} {a : α} (h : a ∈ l) :
    (encode a).length ≤ (repeated tag encode l).length := by
  obtain ⟨before, after, rfl⟩ := List.append_of_mem h
  have hd := le_delimited tag (encode a)
  simp only [repeated, List.flatMap_append, List.flatMap_cons, List.length_append]
  omega

/-- Texts with something in them take three bytes each. -/
theorem le_repeated_utf8 (tag : Nat) {texts : List String} (h : ∀ t ∈ texts, t ≠ "") :
    3 * texts.length ≤ (repeated tag utf8 texts).length := by
  induction texts with
  | nil => exact Nat.zero_le _
  | cons t texts ih =>
    have hrest := ih fun t ht => h t (List.mem_cons_of_mem _ ht)
    have hd := le_delimited tag (utf8 t)
    have ht : 1 ≤ (utf8 t).length := by
      have hsize : (utf8 t).length = t.utf8ByteSize := Text.length_utf8 t
      have hne : t.utf8ByteSize ≠ 0 := fun h₀ => h t List.mem_cons_self (String.utf8ByteSize_eq_zero_iff.mp h₀)
      omega
    have he : repeated tag utf8 (t :: texts) = delimited tag (utf8 t) ++ repeated tag utf8 texts := rfl
    rw [he, List.length_append, List.length_cons]
    omega

/-- Each list of names is a field of the message or of one in it. -/
theorem names_le {w : CompletionLibrary} {names : List String} (hm : names ∈ w.names) (hne : "" ∉ names) :
    3 * names.length ≤ (library w).length := by
  have htexts : ∀ tag, 3 * names.length ≤ (repeated tag utf8 names).length := fun tag =>
    le_repeated_utf8 tag fun t ht he => hne (he ▸ ht)
  simp only [library, List.length_append]
  rcases CompletionLibrary.mem_names.mp hm with ⟨b, hb, hm⟩ | ⟨f, hf, rfl⟩
  · have hle := le_message 2 behavior hb
    simp only [behavior, List.length_append] at hle
    rcases hm with rfl | rfl | ⟨o, ho, hm⟩
    · have := htexts 2
      omega
    · have := htexts 3
      omega
    · have hcapability := le_repeated 4 operationCapability ho
      simp only [operationCapability, List.length_append] at hcapability
      rcases hm with rfl | rfl
      · have := htexts 2
        omega
      · have := htexts 5
        omega
  · have hle := le_repeated 3 subjectField hf
    have := htexts 3
    simp only [subjectField, List.length_append] at hle
    omega

end Proto3

instance : ProstDiscovery where
  libraryLen w := (Proto3.library w).length
  subjectPageLen w := (Proto3.subjectPage w).length

theorem Proto3.discovery_lawful : ProstDiscovery.Lawful where
  library := Proto3.library_reorders
  subjectPage _ _ := Proto3.subjectPage_reorders
  names _ _ := Proto3.names_le

/-! ## Messages in some order -/

open Checks

/-- Names in no order, and two operations. -/
def editionBehavior : V1.CompletionBehavior where
  revision := "r1"
  subjectRoles := ["subject:edition"]
  units := ["unit:b", "unit:a"]
  operations := [⟨"operation:set", ["state:completion"], [3, 1], false, []⟩,
    ⟨"operation:merge", ["state:completion"], [2], false, []⟩]

def editionField : V1.CompletionSubjectField :=
  ⟨"state:completion", "group:entry", ["unit:b", "unit:a"], true, false⟩

def editionLibrary : V1.CompletionLibrary :=
  ⟨some Identity.sample.into, some editionBehavior, [editionField]⟩

/-- It is taken, with its operations in their order. -/
theorem editionLibrary_taken : ∃ b, validateCompletionLibrary editionLibrary .sample = .ok b ∧
    b.operations.map (·.operationClass.value) = ["operation:set", "operation:merge"] := by
  have haccepted : (validateCompletionLibrary editionLibrary .sample).isOk = true := by decide +kernel
  obtain ⟨b, hb⟩ := isOk_iff.mp haccepted
  obtain ⟨_, _, wb, hwb, hordered⟩ := ((validateCompletionLibrary_iff Proto3.discovery_lawful _ _).2 b).mp hb
  cases hwb
  have hclasses : List.Forall₂ (· = ·) (editionBehavior.operations.map (·.operationClass))
      (b.into.operations.map (·.operationClass)) := by
    rw [List.forall₂_map_left_iff, List.forall₂_map_right_iff]
    exact hordered.operations.imp fun _ _ ho => ho.operationClass
  rw [List.forall₂_eq_eq_eq, Behavior.into, List.map_map] at hclasses
  exact ⟨b, hb, hclasses.symm⟩

def editionSubject (value : String) : V1.CompletionSubjectDescriptor :=
  ⟨some ⟨some ⟨"library:edition", value⟩, [], "subject:edition", "Edition"⟩, [editionField]⟩

def editionPage (subjects : List V1.CompletionSubjectDescriptor) : V1.CompletionSubjectPage :=
  ⟨some editionLibrary, subjects, none⟩

def editionRequest : V1.DiscoverCompletionSubjectsRequest := ⟨some ⟨[1], some ⟨"fixture", [1]⟩⟩, 2, none⟩

theorem editionPage_reorders :
    (editionPage [editionSubject "a", editionSubject "b"]).Reorders
      (editionPage [editionSubject "b", editionSubject "a"]) := by
  have hfields : Shuffled V1.CompletionSubjectField.Reorders [editionField] [editionField] :=
    shuffled_of_forall₂ (.cons ⟨rfl, .refl _, .refl _, rfl, rfl⟩ .nil)
  have hsubject : ∀ value, (editionSubject value).Reorders (editionSubject value) := fun value =>
    ⟨.some (.classifications (.refl _)), hfields⟩
  have hlibrary : editionLibrary.Reorders editionLibrary := by
    refine ⟨rfl, .some ⟨rfl, .refl _, .refl _, shuffled_of_forall₂ ?_⟩, hfields⟩
    exact .cons ⟨rfl, .refl _, .refl _, rfl, .refl _⟩ (.cons ⟨rfl, .refl _, .refl _, rfl, .refl _⟩ .nil)
  exact ⟨.some hlibrary, ⟨_, .swap _ _ _, .cons (hsubject "b") (.cons (hsubject "a") .nil)⟩, rfl⟩

/-- A page is taken with its subjects in either order. -/
theorem editionPage_taken :
    validateCompletionSubjectPage (editionPage [editionSubject "b", editionSubject "a"]) editionRequest .sample =
      .ok () := by
  have h : validateCompletionSubjectPage (editionPage [editionSubject "a", editionSubject "b"]) editionRequest
    .sample = .ok () := by decide +kernel
  exact ((validateCompletionSubjectPage_iff Proto3.discovery_lawful _ _ _).2 _ editionPage_reorders).mp h

end ProviderSdk
