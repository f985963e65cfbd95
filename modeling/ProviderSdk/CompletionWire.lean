/-
The completion wire (`completion_wire.rs`): how names, identities, subjects,
domains, references, progress and JSON values travel.

`tryFrom` is the source's `TryFrom` a message and `into` its `From` a model
value. Beside each pair stands what decoding makes of what encoding wrote.
-/
import ProviderSdk.CompletionOperation
import ProviderSdk.CompletionProto
import ProviderSdk.Lib.Codec

namespace ProviderSdk

open Checks Codec

def maximumCollectionItems : Nat := 100000
def maximumJsonBytes : Nat := maximumNativeValueBytes

inductive WireError where
  | invalidModel (error : ModelError)
  | invalidOperation (error : OperationError)
  | missing (field : String)
  | invalidEnum (field : String)
  | duplicate (field : String)
  | limitExceeded
  | invalidJson
  | invalidDiscovery
  | invalidState (message : String)
  deriving DecidableEq

/-- `?` on a `ModelError` where a `WireError` is returned. -/
def fromModel {α : Type} (x : Except ModelError α) : Except WireError α := x.mapError .invalidModel

/-- `?` on an `OperationError` where a `WireError` is returned. -/
def fromOperation {α : Type} (x : Except OperationError α) : Except WireError α := x.mapError .invalidOperation

@[simp] theorem fromModel_ok {α : Type} {x : Except ModelError α} {a : α} : fromModel x = .ok a ↔ x = .ok a :=
  mapError_ok

@[simp] theorem fromOperation_ok {α : Type} {x : Except OperationError α} {a : α} :
    fromOperation x = .ok a ↔ x = .ok a := mapError_ok

def required {α : Type} (value : Option α) (field : String) : Except WireError α :=
  okOr value (.missing field)

@[simp] theorem required_ok {α : Type} {value : Option α} {field : String} {a : α} :
    required value field = .ok a ↔ value = some a := okOr_ok

/-! ## Sets and names -/

section

variable {T U : Type} [LinearOrder U]

def decodeSet (convert : T → Except WireError U) (field : String) (values : List T) :
    Except WireError (BTreeSet U) := do
  reject (values.length > maximumCollectionItems) .limitExceeded
  values.foldlM (insertNew convert (.duplicate field)) .new

variable {convert : T → Except WireError U} {field : String} {into : U → T} {s : BTreeSet U}

theorem decodeSet_ok {values : List T} : decodeSet convert field values = .ok s ↔
    values.length ≤ maximumCollectionItems ∧ values.foldlM (insertNew convert (.duplicate field)) .new = .ok s := by
  simp only [decodeSet, bind_ok, reject_ok, gt_iff_lt, Nat.not_lt, exists_const]

/-- A set is read back unless it is larger than a collection may be. -/
theorem decodeSet_returns (h : ∀ u, convert (into u) = .ok u) :
    Returns (decodeSet convert field) (fun s => s.toList.map into) (s.len ≤ maximumCollectionItems) s := by
  intro s'
  rw [decodeSet_ok, List.length_map]
  refine and_congr_right fun _ => ((returns_insertNew fun u _ u' => ?_) s').trans (and_iff_right trivial)
  rw [h, Except.ok.injEq, true_and]

theorem decodeSet_respects : Respects (decodeSet convert field) List.Perm where
  ok hp h := by
    rw [decodeSet_ok] at h ⊢
    exact ⟨hp.length_eq ▸ h.1, respects_insertNew.ok hp h.2⟩

theorem decodeSet_determines (h : Restores convert into) : Determines (decodeSet convert field) List.Perm where
  rel hd hd' := by
    rw [decodeSet_ok] at hd hd'
    exact (determines_insertNew h).rel hd.2 hd'.2

theorem decodeSet_yields : Yields (decodeSet convert field) (·.len ≤ maximumCollectionItems) where
  of_ok h := by
    rw [decodeSet_ok] at h
    exact len_insertNew h.2 ▸ h.1

end

def decodeNames (field : String) (values : List String) : Except WireError (BTreeSet Name) :=
  decodeSet (fun value => fromModel (Name.new value)) field values

theorem fromModel_new_value (n : Name) : fromModel (Name.new n.value) = .ok n := by
  rw [fromModel_ok, Name.new_value]

theorem decodeNames_encode {field : String} {names names' : BTreeSet Name} :
    decodeNames field (names.toList.map (·.value)) = .ok names' ↔
      names.len ≤ maximumCollectionItems ∧ names = names' := by
  have h : Returns (decodeNames field) (fun s => s.toList.map (·.value)) (names.len ≤ maximumCollectionItems) names :=
    decodeSet_returns fromModel_new_value
  exact h names'

theorem fromModel_new_restores : Restores (fun value => fromModel (Name.new value)) (·.value) where
  of_ok h := Name.new_ok.mp (fromModel_ok.mp h)

theorem decodeNames_respects {field : String} : Respects (decodeNames field) List.Perm where
  ok hp h := decodeSet_respects.ok hp h

theorem decodeNames_determines {field : String} : Determines (decodeNames field) List.Perm where
  rel hd hd' := (decodeSet_determines fromModel_new_restores).rel hd hd'

theorem decodeNames_yields {field : String} : Yields (decodeNames field) (·.len ≤ maximumCollectionItems) where
  of_ok h := decodeSet_yields.of_ok h

/-! ## JSON values -/

variable {V : Type} [SerdeJson V]

def decodeJson (bytes : List UInt8) : Except WireError V := do
  reject (bytes.length > maximumJsonBytes) .limitExceeded
  okOr (SerdeJson.fromSlice bytes) .invalidJson

def encodeJson (value : V) : List UInt8 := SerdeJson.toString value

theorem decodeJson_ok {bytes : List UInt8} {v : V} :
    decodeJson bytes = .ok v ↔ bytes.length ≤ maximumJsonBytes ∧ SerdeJson.fromSlice bytes = some v := by
  simp only [decodeJson, bind_ok, reject_ok, gt_iff_lt, Nat.not_lt, exists_const, okOr_ok]

/-- A value `from_slice` reads back travels as far as its text fits. -/
theorem decodeJson_returns {v : V} (h : SerdeJson.fromSlice (SerdeJson.toString v) = some v) :
    Returns decodeJson encodeJson ((SerdeJson.toString v).length ≤ maximumJsonBytes) v := by
  intro v'
  rw [decodeJson_ok, encodeJson, h, Option.some.injEq]

/-! ## Identities and subjects -/

def Identity.tryFrom (value : V1.CompletionIdentity) : Except WireError Identity := do
  let namespaceName ← fromModel (Name.new value.namespaceName)
  fromModel (Identity.new namespaceName value.value)

def Identity.into (self : Identity) : V1.CompletionIdentity where
  namespaceName := self.namespaceName.value
  value := self.value

@[simp] theorem Identity.tryFrom_into (i : Identity) : Identity.tryFrom i.into = .ok i := by
  simp [tryFrom, into]

theorem Identity.tryFrom_restores : Restores Identity.tryFrom Identity.into where
  of_ok {w i} h := by
    simp only [tryFrom, bind_ok, fromModel_ok, Name.new_ok, Identity.new_ok] at h
    obtain ⟨n, hn, he, hv⟩ := h
    rw [into, he, hn, hv]

theorem Identity.mapM_tryFrom_into (l : List Identity) : (l.map Identity.into).mapM Identity.tryFrom = .ok l :=
  (returns_list (P := fun _ => True) fun i _ i' => by simp).ok (by simp)

def Subject.tryFrom (value : V1.CompletionSubject) : Except WireError Subject := do
  let identity ← Identity.tryFrom (← required value.identity "subject.identity")
  let classifications ← decodeNames "subject.classifications" value.classifications
  let role ← fromModel (Name.new value.role)
  pure { identity, classifications, role, label := value.label }

def Subject.into (self : Subject) : V1.CompletionSubject where
  identity := some self.identity.into
  classifications := self.classifications.toList.map (·.value)
  role := self.role.value
  label := self.label

/-- A subject is read back unless it has too many classifications. -/
theorem Subject.tryFrom_into (s : Subject) :
    Returns Subject.tryFrom Subject.into (s.classifications.len ≤ maximumCollectionItems) s := by
  intro s'
  simp only [tryFrom, into, bind_ok, required_ok, Option.some.injEq, exists_eq_left', decodeNames_encode,
    Identity.tryFrom_into, Except.ok.injEq, fromModel_new_value, pure_ok, and_assoc, exists_and_left]

/-! ## Domains -/

/-- The `match` on an ordering in `Domain::try_from`. -/
def decodeOrdering (value : Int32) : Except WireError Ordering :=
  match V1.CompletionOrdering.tryFrom value with
  | some .ordered => pure .ordered
  | some .unordered => pure .unordered
  | _ => throw (.invalidEnum "domain.ordering")

/-- The `match` on an ordering in `From<Domain>`. -/
def encodeOrdering (value : Ordering) : Int32 :=
  match value with
  | .ordered => V1.CompletionOrdering.number .ordered
  | .unordered => V1.CompletionOrdering.number .unordered

def Domain.tryFrom (value : V1.CompletionDomain) : Except WireError Domain := do
  let ordering ← decodeOrdering value.ordering
  reject (value.units.length > maximumCollectionItems) .limitExceeded
  let identity ← Identity.tryFrom (← required value.identity "domain.identity")
  let unit ← fromModel (Name.new value.unit)
  let units ← value.units.mapM Identity.tryFrom
  fromModel (Domain.new identity value.revision unit ordering units value.closed)

def Domain.into (self : Domain) : V1.CompletionDomain where
  identity := some self.identity.into
  revision := self.revision
  unit := self.unit.value
  ordering := encodeOrdering self.ordering
  units := self.units.map Identity.into
  closed := self.closed

@[simp] theorem decodeOrdering_encode (o : Ordering) : decodeOrdering (encodeOrdering o) = .ok o := by
  cases o <;> rfl

/-- Every domain travels. -/
@[simp] theorem Domain.tryFrom_into (d : Domain) : Domain.tryFrom d.into = .ok d := by
  have hbound : d.units.length ≤ maximumCollectionItems := d.ok.bounded
  simp only [tryFrom, into, bind_ok, decodeOrdering_encode, Except.ok.injEq, exists_eq_left', reject_ok,
    List.length_map, gt_iff_lt, Nat.not_lt, hbound, exists_const, true_and, required_ok, Option.some.injEq,
    Identity.tryFrom_into, fromModel_new_value, Identity.mapM_tryFrom_into, fromModel_ok, Domain.new_parts]

/-! ## References -/

def UnitReference.tryFrom (binding : V1.CompletionUnitReference) : Except WireError UnitReference := do
  let unit ← Identity.tryFrom (← required binding.unit "references.unit")
  pure { unit, reference := binding.reference }

def UnitReference.into (self : UnitReference) : V1.CompletionUnitReference where
  unit := some self.unit.into
  reference := self.reference

def DomainReferences.tryFrom (value : V1.CompletionDomainReferences) : Except WireError DomainReferences := do
  reject (value.units.length > maximumCollectionItems) .limitExceeded
  let subject ← Identity.tryFrom (← required value.subject "references.subject")
  let domain ← Domain.tryFrom (← required value.domain "references.domain")
  let units ← value.units.mapM UnitReference.tryFrom
  fromModel (DomainReferences.new subject domain units)

def DomainReferences.into (self : DomainReferences) : V1.CompletionDomainReferences where
  subject := some self.subject.into
  domain := some self.domain.into
  units := self.units.map UnitReference.into

@[simp] theorem UnitReference.tryFrom_into (b : UnitReference) : UnitReference.tryFrom b.into = .ok b := by
  simp [tryFrom, into]

/-- All references travel: they bind each unit of their domain once. -/
@[simp] theorem DomainReferences.tryFrom_into (r : DomainReferences) : DomainReferences.tryFrom r.into = .ok r := by
  have hbound : r.units.length ≤ maximumCollectionItems := by
    have hlen := r.ok.covers.length_eq
    rw [List.length_map] at hlen
    exact hlen ▸ r.domain.ok.bounded
  have hunits : (r.units.map UnitReference.into).mapM UnitReference.tryFrom = .ok r.units :=
    (returns_list (P := fun _ => True) fun b _ b' => by simp).ok (by simp)
  simp only [tryFrom, into, bind_ok, reject_ok, List.length_map, gt_iff_lt, Nat.not_lt, hbound, exists_const, true_and,
    required_ok, Option.some.injEq, exists_eq_left', Identity.tryFrom_into, Except.ok.injEq, Domain.tryFrom_into,
    hunits, fromModel_ok, DomainReferences.new_parts]

/-! ## Progress -/

/-- `CompletionItems` to a set. -/
def itemsTryFrom (value : V1.CompletionItems) : Except WireError (BTreeSet Identity) :=
  decodeSet Identity.tryFrom "items.completed" value.completed

/-- A set to `CompletionItems`. -/
def itemsInto (value : BTreeSet Identity) : V1.CompletionItems where
  completed := value.toList.map Identity.into

def Progress.tryFrom (value : V1.CompletionProgress) : Except WireError Progress := do
  match ← required value.value "progress.value" with
  | .items sent => do
    let completed ← itemsTryFrom sent
    pure (.items completed)
  | .prefixCount completed => pure (.prefixCount completed)
  | .cardinality completed => pure (.cardinality completed)

def Progress.into (self : Progress) : V1.CompletionProgress where
  value := some (match self with
    | .items completed => .items (itemsInto completed)
    | .prefixCount completed => .prefixCount completed
    | .cardinality completed => .cardinality completed)

/-- A set is read back from the items it was sent as, unless it is larger
than a collection may be. -/
theorem itemsTryFrom_into (s : BTreeSet Identity) :
    Returns itemsTryFrom itemsInto (s.len ≤ maximumCollectionItems) s := by
  have h : Returns (decodeSet Identity.tryFrom "items.completed") (fun s => s.toList.map Identity.into)
      (s.len ≤ maximumCollectionItems) s := decodeSet_returns Identity.tryFrom_into
  exact h

/-- A set of units of a domain travels. -/
theorem itemsTryFrom_units {s : BTreeSet Identity} {d : Domain} (h : ∀ unit ∈ s, unit ∈ d.units) :
    itemsTryFrom (itemsInto s) = .ok s :=
  (itemsTryFrom_into s).ok (Nat.le_trans (BTreeSet.len_le_of_subset h) d.ok.bounded)

/-- How many units a progress lists. -/
def Progress.listed : Progress → Nat
  | .items completed => completed.len
  | _ => 0

/-- A progress is read back unless it lists too many units. -/
theorem Progress.tryFrom_returns (p : Progress) :
    Returns Progress.tryFrom Progress.into (p.listed ≤ maximumCollectionItems) p := by
  intro p'
  cases p with
  | items completed =>
    simp only [tryFrom, into, bind_ok, required_ok, Option.some.injEq, exists_eq_left', itemsTryFrom_into completed _,
      pure_ok, listed, and_assoc, exists_and_left]
  | prefixCount completed => simp [tryFrom, into, listed]
  | cardinality completed => simp [tryFrom, into, listed]

/-- A valid progress lists units of its domain. -/
theorem Progress.Valid.listed {p : Progress} {d : Domain} (h : p.Valid d) : p.listed ≤ maximumCollectionItems := by
  cases p with
  | items completed => exact Nat.le_trans (BTreeSet.len_le_of_subset h) d.ok.bounded
  | prefixCount completed => exact Nat.zero_le _
  | cardinality completed => exact Nat.zero_le _

theorem Progress.tryFrom_into {p : Progress} {d : Domain} (h : p.Valid d) : Progress.tryFrom p.into = .ok p :=
  p.tryFrom_returns.ok h.listed

/-! ## Scopes and groups -/

def EffectScope.tryFrom (value : V1.CompletionEffectScope) : Except WireError EffectScope := do
  let account ← Identity.tryFrom (← required value.account "scope.account")
  let subject ← Identity.tryFrom (← required value.subject "scope.subject")
  let field ← fromModel (Name.new value.field)
  pure { account, subject, field }

def EffectScope.into (self : EffectScope) : V1.CompletionEffectScope where
  account := some self.account.into
  subject := some self.subject.into
  field := self.field.value

def EffectGroup.tryFrom (value : V1.CompletionEffectGroup) : Except WireError EffectGroup := do
  let account ← Identity.tryFrom (← required value.account "group.account")
  let subject ← Identity.tryFrom (← required value.subject "group.subject")
  let group ← fromModel (Name.new value.group)
  pure { account, subject, group }

def EffectGroup.into (self : EffectGroup) : V1.CompletionEffectGroup where
  account := some self.account.into
  subject := some self.subject.into
  group := self.group.value

@[simp] theorem EffectScope.tryFrom_into (s : EffectScope) : EffectScope.tryFrom s.into = .ok s := by
  simp [tryFrom, into]

@[simp] theorem EffectGroup.tryFrom_into (g : EffectGroup) : EffectGroup.tryFrom g.into = .ok g := by
  simp [tryFrom, into]

theorem EffectScope.tryFrom_restores : Restores EffectScope.tryFrom EffectScope.into where
  of_ok {w s} h := by
    simp only [tryFrom, bind_ok, required_ok, fromModel_ok, Name.new_ok, pure_ok] at h
    obtain ⟨a, ha, account, haccount, b, hb, subject, hsubject, field, hfield, rfl⟩ := h
    rw [into, Identity.tryFrom_restores.of_ok haccount, Identity.tryFrom_restores.of_ok hsubject, hfield, ← ha, ← hb]

/-! ## Read qualities -/

def decodeQuality (value : Int32) (field : String) : Except WireError ReadQuality :=
  match V1.CompletionReadQuality.tryFrom value with
  | some .complete => pure .complete
  | some .partialRead => pure .partialRead
  | some .unreadable => pure .unreadable
  | some .stale => pure .stale
  | _ => throw (.invalidEnum field)

def encodeQuality (value : ReadQuality) : Int32 :=
  match value with
  | .complete => V1.CompletionReadQuality.number .complete
  | .partialRead => V1.CompletionReadQuality.number .partialRead
  | .unreadable => V1.CompletionReadQuality.number .unreadable
  | .stale => V1.CompletionReadQuality.number .stale

@[simp] theorem decodeQuality_encode {field : String} (q : ReadQuality) :
    decodeQuality (encodeQuality q) field = .ok q := by
  cases q <;> rfl

/-! ## Values before a change -/

def decodeBefore (value : V1.CompletionBeforeValue) : Except WireError (BeforeValue V) := do
  match ← required value.value "before.value" with
  | .knownJson bytes => do
    let value ← decodeJson bytes
    pure (.known value)
  | .missing => pure .missing
  | .unknown => pure .unknown

def BeforeValue.into (self : BeforeValue V) : V1.CompletionBeforeValue where
  value := some (match self with
    | .known value => .knownJson (encodeJson value)
    | .missing => .missing
    | .unknown => .unknown)

omit [SerdeJson V] in
/-- The JSON value a value is known as. -/
def BeforeValue.json : BeforeValue V → List V
  | .known value => [value]
  | _ => []

theorem decodeBefore_into {b : BeforeValue V} {P : V → Prop}
    (h : ∀ v ∈ b.json, Returns decodeJson encodeJson (P v) v) :
    Returns decodeBefore BeforeValue.into (∀ v ∈ b.json, P v) b := by
  intro b'
  cases b with
  | known v =>
    simp only [decodeBefore, BeforeValue.into, bind_ok, required_ok, Option.some.injEq, exists_eq_left',
      h v (by simp [BeforeValue.json]) _, pure_ok, BeforeValue.json, List.mem_singleton, forall_eq, and_assoc,
      exists_and_left]
  | missing => simp [decodeBefore, BeforeValue.into, BeforeValue.json]
  | unknown => simp [decodeBefore, BeforeValue.into, BeforeValue.json]

end ProviderSdk
