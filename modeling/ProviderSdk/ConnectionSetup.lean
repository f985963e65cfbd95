/-
Opening a connection and discovering its sources (`validation.rs`).

The two responses are checked apart, each in a loop that takes the key of a
snapshot for granted once the snapshot is valid. Together they make every
source the source of exactly one account.
-/
import ProviderSdk.TargetedState

namespace ProviderSdk

open Checks V1

/-! ## Fields a source has -/

/-- The `match` on a descriptor's range and quantizer. -/
def checkRange (range : Option StateFieldNumericRange) (quantizer : StateFieldQuantizer) :
    Except ValidationError Unit :=
  match range with
  | none => reject (quantizer ≠ .unspecified) (.invalid "state field numeric range and quantizer")
  | some range => do
    reject (quantizer = .unspecified) (.invalid "state field numeric range and quantizer")
    nonEmptyText range.minimum "state field numeric minimum"
    nonEmptyText range.maximum "state field numeric maximum"
    nonEmptyText range.step "state field numeric step"

def stateFieldDescriptor (descriptor : StateFieldDescriptor) : Except ValidationError Unit := do
  term (← okOr descriptor.field (.missing "state field descriptor field")) "state field descriptor field"
  ifSome descriptor.unit fun unit => term unit "state field descriptor unit"
  let quantizer ← okOr (StateFieldQuantizer.tryFrom descriptor.quantizer) (.invalid "state field quantizer")
  checkRange descriptor.numericRange quantizer

def V1.StateFieldNumericRange.WellFormed (range : StateFieldNumericRange) : Prop :=
  TextOk range.minimum ∧ TextOk range.maximum ∧ TextOk range.step

/-- A descriptor has a range and a quantizer, or neither. -/
structure V1.StateFieldDescriptor.WellFormed (d : StateFieldDescriptor) : Prop where
  field : ∃ t, d.field = some t ∧ t.WellFormed
  unit : ∀ unit, d.unit = some unit → unit.WellFormed
  quantizer : ∃ q, StateFieldQuantizer.tryFrom d.quantizer = some q ∧ (q = .unspecified ↔ d.numericRange = none)
  range : ∀ range, d.numericRange = some range → range.WellFormed

theorem checkRange_ok {range : Option StateFieldNumericRange} {q : StateFieldQuantizer} {u : Unit} :
    checkRange range q = .ok u ↔
      (q = .unspecified ↔ range = none) ∧ ∀ r, range = some r → r.WellFormed := by
  cases range with
  | none => simp [checkRange]
  | some range => simp [checkRange, StateFieldNumericRange.WellFormed]

@[simp] theorem stateFieldDescriptor_ok {d : StateFieldDescriptor} {u : Unit} :
    stateFieldDescriptor d = .ok u ↔ d.WellFormed := by
  simp only [stateFieldDescriptor, bind_ok, okOr_ok, term_ok, exists_const, ifSome_ok, checkRange_ok]
  refine ⟨fun h => ?_, fun h => ?_⟩
  · obtain ⟨t, ht, hw, hunit, q, hq, hspecified, hrange⟩ := h
    exact ⟨⟨t, ht, hw⟩, hunit, ⟨q, hq, hspecified⟩, hrange⟩
  · obtain ⟨⟨t, ht, hw⟩, hunit, ⟨q, hq, hspecified⟩, hrange⟩ := h
    exact ⟨t, ht, hw, hunit, q, hq, hspecified, hrange⟩

/-! ## Sources -/

variable [Prost]

/-- The body of the loop over an asset capability's content types. -/
def scanContentType (contentTypes : HashSet String) (contentType : String) :
    Except ValidationError (HashSet String) := do
  nonEmptyText contentType "asset content type"
  let (contentTypes, fresh) := contentTypes.insert contentType
  reject (¬ fresh) (.duplicate "asset content type")
  pure contentTypes

def sourceCapabilities (capabilities : SourceCapabilities) : Except ValidationError Unit := do
  reject (capabilities.catalog.any fun catalog => !catalog.full && !catalog.incremental)
    (.invalid "catalog read capability")
  reject (capabilities.state.any fun state => !state.full && !state.incremental) (.invalid "state read capability")
  capabilities.stateFields.forM stateFieldDescriptor
  ifSome capabilities.assets fun assets => do
    reject (assets.maximumBytes = 0) (.invalid "asset maximum bytes")
    discard <| assets.contentTypes.foldlM scanContentType .new
  ifSome capabilities.targetedStateRead targetedStateReadCapability
  ifSome capabilities.targetedStateWrite targetedStateWriteCapability

def accountSnapshot (account : AccountSnapshot) : Except ValidationError Unit := do
  key (← okOr account.key (.missing "account key")) "account key"
  nonEmptyText account.displayName "account display name"

def sourceSnapshot (source : SourceSnapshot) : Except ValidationError Unit := do
  key (← okOr source.key (.missing "source key")) "source key"
  key (← okOr source.accountKey (.missing "source account key")) "source account key"
  nonEmptyText source.displayName "source display name"
  term (← okOr source.kind (.missing "source kind")) "source kind"
  sourceCapabilities (← okOr source.capabilities (.missing "source capabilities"))

/-- A capability to read, in full or by increments. -/
def V1.ReadCapability.WellFormed (c : ReadCapability) : Prop := c.full = true ∨ c.incremental = true

structure V1.AssetCapability.WellFormed (c : AssetCapability) : Prop where
  maximumBytes : c.maximumBytes ≠ 0
  contentTypes : ∀ t ∈ c.contentTypes, TextOk t
  distinct : c.contentTypes.Nodup

structure V1.SourceCapabilities.WellFormed (c : SourceCapabilities) : Prop where
  catalog : ∀ catalog, c.catalog = some catalog → catalog.WellFormed
  state : ∀ state, c.state = some state → state.WellFormed
  stateFields : ∀ d ∈ c.stateFields, d.WellFormed
  assets : ∀ assets, c.assets = some assets → assets.WellFormed
  targetedStateRead : ∀ targeted, c.targetedStateRead = some targeted →
    targeted.maximumFields ≠ 0 ∧ targeted.maximumResponseBytes ≠ 0
  targetedStateWrite : ∀ targeted, c.targetedStateWrite = some targeted → targeted.WellFormed

structure V1.AccountSnapshot.WellFormed (a : AccountSnapshot) : Prop where
  key : ∃ k, a.key = some k ∧ k.WellFormed
  displayName : TextOk a.displayName

structure V1.SourceSnapshot.WellFormed (s : SourceSnapshot) : Prop where
  key : ∃ k, s.key = some k ∧ k.WellFormed
  accountKey : ∃ k, s.accountKey = some k ∧ k.WellFormed
  displayName : TextOk s.displayName
  kind : ∃ t, s.kind = some t ∧ t.WellFormed
  capabilities : ∃ c, s.capabilities = some c ∧ c.WellFormed

omit [Prost] in
theorem scanContentTypes_ok {contentTypes : List String} :
    (∃ seen, contentTypes.foldlM scanContentType .new = .ok seen) ↔
      (∀ t ∈ contentTypes, TextOk t) ∧ contentTypes.Nodup := by
  have hg : Guarded scanContentType (fun seen t => TextOk t ∧ t ∉ seen) (fun seen t => (seen.insert t).1) :=
    ⟨by simp [scanContentType, and_assoc]⟩
  have hfresh : Each (fun pre t => t ∉ pre) contentTypes ↔ contentTypes.Nodup := by
    have h : Each (fun pre t => t ∉ pre.map id) contentTypes ↔ (contentTypes.map id).Nodup := each_fresh
    simpa only [List.map_id] using h
  simp only [hg.foldlM_after (b := .new) .collect rfl fun pre t => by simp, HashSet.mem_collect, each_and,
    each_forall, hfresh]
  exact ⟨fun h => h.choose_spec.1, fun h => ⟨_, h, rfl⟩⟩

theorem sourceCapabilities_ok {c : SourceCapabilities} {u : Unit} :
    sourceCapabilities c = .ok u ↔ c.WellFormed := by
  have hread : ∀ o : Option ReadCapability, ¬ (o.any fun c => !c.full && !c.incremental) = true ↔
      ∀ c, o = some c → c.WellFormed := fun o => by
    cases o with
    | none => simp
    | some c => simp [ReadCapability.WellFormed, or_iff_not_imp_left]
  simp only [sourceCapabilities, bind_ok, reject_ok, hread, exists_const, forM_ok, stateFieldDescriptor_ok, ifSome_ok,
    discard_ok, scanContentTypes_ok, targetedStateReadCapability, not_or, targetedStateWriteCapability_ok]
  refine ⟨fun h => ?_, fun h => ?_⟩
  · obtain ⟨h₁, h₂, h₃, h₄, h₅, h₆⟩ := h
    exact ⟨h₁, h₂, h₃, fun a ha => ⟨(h₄ a ha).1, (h₄ a ha).2.1, (h₄ a ha).2.2⟩, h₅, h₆⟩
  · obtain ⟨h₁, h₂, h₃, h₄, h₅, h₆⟩ := h
    exact ⟨h₁, h₂, h₃, fun a ha => ⟨(h₄ a ha).1, (h₄ a ha).2, (h₄ a ha).3⟩, h₅, h₆⟩

omit [Prost] in
@[simp] theorem accountSnapshot_ok {a : AccountSnapshot} {u : Unit} : accountSnapshot a = .ok u ↔ a.WellFormed := by
  simp only [accountSnapshot, bind_ok, okOr_ok, key_ok, nonEmptyText_ok, exists_const]
  refine ⟨fun h => ?_, fun h => ?_⟩
  · obtain ⟨k, hk, hw, hn⟩ := h
    exact ⟨⟨k, hk, hw⟩, hn⟩
  · obtain ⟨⟨k, hk, hw⟩, hn⟩ := h
    exact ⟨k, hk, hw, hn⟩

@[simp] theorem sourceSnapshot_ok {s : SourceSnapshot} {u : Unit} : sourceSnapshot s = .ok u ↔ s.WellFormed := by
  simp only [sourceSnapshot, bind_ok, okOr_ok, key_ok, nonEmptyText_ok, term_ok, exists_const, sourceCapabilities_ok]
  refine ⟨fun h => ?_, fun h => ?_⟩
  · obtain ⟨k, hk, hw, a, ha, haw, hn, t, ht, htw, c, hc, hcw⟩ := h
    exact ⟨⟨k, hk, hw⟩, ⟨a, ha, haw⟩, hn, ⟨t, ht, htw⟩, c, hc, hcw⟩
  · obtain ⟨⟨k, hk, hw⟩, ⟨a, ha, haw⟩, hn, ⟨t, ht, htw⟩, c, hc, hcw⟩ := h
    exact ⟨k, hk, hw, a, ha, haw, hn, t, ht, htw, c, hc, hcw⟩

/-! ## The two responses -/

/-- The body of the loop over the accounts. -/
def scanAccount (accountKeys : HashSet Key) (account : AccountSnapshot) :
    Except (Fault ValidationError) (HashSet Key) := do
  fallible (accountSnapshot account)
  let (accountKeys, fresh) := accountKeys.insert (← okOr account.key .panic)
  reject (¬ fresh) (.error (.duplicate "account key"))
  pure accountKeys

def openConnectionResponse (response : OpenConnectionResponse) : Except (Fault ValidationError) Unit :=
  match response.outcome with
  | some (.result result) => discard <| result.accounts.foldlM scanAccount .new
  | some (.error error) => fallible (adapterError error)
  | none => throw (.error (.missing "open connection outcome"))

/-- The body of the loop over the sources. -/
def scanSource (accounts sourceKeys : HashSet Key) (source : SourceSnapshot) :
    Except (Fault ValidationError) (HashSet Key) := do
  fallible (sourceSnapshot source)
  reject ((← okOr source.accountKey .panic) ∉ accounts) (.error .unknownAccount)
  let (sourceKeys, fresh) := sourceKeys.insert (← okOr source.key .panic)
  reject (¬ fresh) (.error (.duplicate "source key"))
  pure sourceKeys

def discoverSourcesResponse (accountKeys : List Key) (response : DiscoverSourcesResponse) :
    Except (Fault ValidationError) Unit :=
  match response.outcome with
  | some (.result result) => discard <| result.sources.foldlM (scanSource (.collect accountKeys)) .new
  | some (.error error) => fallible (adapterError error)
  | none => throw (.error (.missing "source discovery outcome"))

/-! ## What they accept -/

omit [Prost] in
theorem scanAccount_guarded : Guarded scanAccount
    (fun keys a => a.WellFormed ∧ ∃ k, a.key = some k ∧ k ∉ keys)
    (fun keys a => a.key.elim keys fun k => (keys.insert k).1) where
  ok_iff {keys a r} := by
    simp only [scanAccount, bind_ok, fallible_ok, accountSnapshot_ok, exists_const, okOr_ok, reject_ok, not_not,
      HashSet.insert_fresh, pure_ok, and_assoc]
    refine and_congr_right fun _ => ⟨fun h => ?_, fun h => ?_⟩
    · obtain ⟨k, hk, hf, hr⟩ := h
      exact ⟨⟨k, hk, hf⟩, by rw [hk]; exact hr⟩
    · obtain ⟨⟨k, hk, hf⟩, hr⟩ := h
      rw [hk] at hr
      exact ⟨k, hk, hf, hr⟩

omit [Prost] in
theorem openConnectionResponse_ok {result : OpenConnectionResult} {u : Unit} :
    openConnectionResponse ⟨some (.result result)⟩ = .ok u ↔
      (∀ a ∈ result.accounts, a.WellFormed) ∧ (result.accounts.map (·.key)).Nodup := by
  have hfresh : ∀ pre : List AccountSnapshot, ∀ a : AccountSnapshot,
      (a.WellFormed ∧ ∃ k, a.key = some k ∧ k ∉ pre.filterMap (·.key)) ↔
        a.WellFormed ∧ a.key ∉ pre.map (·.key) := fun pre a =>
    and_congr_right fun h => HashSet.key_fresh ⟨h.key.choose, h.key.choose_spec.1⟩
  simp only [openConnectionResponse, discard_ok, scanAccount_guarded.foldlM_after (b := .new)
    (fun pre => .collect (pre.filterMap (·.key))) rfl HashSet.collect_filterMap_concat, HashSet.mem_collect, hfresh,
    each_and, each_forall, each_fresh]
  exact ⟨fun h => h.choose_spec.1, fun h => ⟨_, h, rfl⟩⟩

theorem scanSource_guarded {accounts : HashSet Key} : Guarded (scanSource accounts)
    (fun keys s => (s.WellFormed ∧ ∃ k, s.accountKey = some k ∧ k ∈ accounts) ∧ ∃ k, s.key = some k ∧ k ∉ keys)
    (fun keys s => s.key.elim keys fun k => (keys.insert k).1) where
  ok_iff {keys s r} := by
    simp only [scanSource, bind_ok, fallible_ok, sourceSnapshot_ok, exists_const, okOr_ok, reject_ok, not_not,
      HashSet.insert_fresh, pure_ok, and_assoc]
    refine and_congr_right fun _ => ⟨fun h => ?_, fun h => ?_⟩
    · obtain ⟨a, ha, hm, k, hk, hf, hr⟩ := h
      exact ⟨⟨a, ha, hm⟩, ⟨k, hk, hf⟩, by rw [hk]; exact hr⟩
    · obtain ⟨⟨a, ha, hm⟩, ⟨k, hk, hf⟩, hr⟩ := h
      rw [hk] at hr
      exact ⟨a, ha, hm, k, hk, hf, hr⟩

theorem discoverSourcesResponse_ok {accountKeys : List Key} {result : DiscoverSourcesResult} {u : Unit} :
    discoverSourcesResponse accountKeys ⟨some (.result result)⟩ = .ok u ↔
      (∀ s ∈ result.sources, s.WellFormed ∧ ∃ k, s.accountKey = some k ∧ k ∈ accountKeys) ∧
        (result.sources.map (·.key)).Nodup := by
  have hfresh : ∀ pre : List SourceSnapshot, ∀ s : SourceSnapshot,
      ((s.WellFormed ∧ ∃ k, s.accountKey = some k ∧ k ∈ accountKeys) ∧
        ∃ k, s.key = some k ∧ k ∉ pre.filterMap (·.key)) ↔
        (s.WellFormed ∧ ∃ k, s.accountKey = some k ∧ k ∈ accountKeys) ∧ s.key ∉ pre.map (·.key) := fun pre s =>
    and_congr_right fun h => HashSet.key_fresh ⟨h.1.key.choose, h.1.key.choose_spec.1⟩
  simp only [discoverSourcesResponse, discard_ok, scanSource_guarded.foldlM_after (b := .new)
    (fun pre => .collect (pre.filterMap (·.key))) rfl HashSet.collect_filterMap_concat, HashSet.mem_collect, hfresh,
    each_and, each_forall, each_fresh, forall₂_and]
  exact ⟨fun h => h.choose_spec.1, fun h => ⟨_, h, rfl⟩⟩

/-- **Who a source belongs to.** What the two loops accept, and what it comes
to when a connection is opened and its sources are then discovered: every
source has one account, whatever the order of either response and however
often an account is asked for. -/
theorem connection_setup :
    (∀ opened : OpenConnectionResult, openConnectionResponse ⟨some (.result opened)⟩ = .ok () ↔
      (∀ a ∈ opened.accounts, a.WellFormed) ∧ (opened.accounts.map (·.key)).Nodup) ∧
    (∀ (accountKeys : List Key) (discovered : DiscoverSourcesResult),
      discoverSourcesResponse accountKeys ⟨some (.result discovered)⟩ = .ok () ↔
        (∀ s ∈ discovered.sources, s.WellFormed ∧ ∃ k, s.accountKey = some k ∧ k ∈ accountKeys) ∧
          (discovered.sources.map (·.key)).Nodup) ∧
    (∀ (opened : OpenConnectionResult) (accountKeys : List Key) (discovered : DiscoverSourcesResult),
      openConnectionResponse ⟨some (.result opened)⟩ = .ok () →
      (∀ k, k ∈ accountKeys ↔ some k ∈ opened.accounts.map (·.key)) →
      discoverSourcesResponse accountKeys ⟨some (.result discovered)⟩ = .ok () →
      ∀ s ∈ discovered.sources, ∃ account, opened.accounts.filter (·.key = s.accountKey) = [account]) ∧
    (∀ opened opened' : OpenConnectionResult, opened.accounts.Perm opened'.accounts →
      (openConnectionResponse ⟨some (.result opened)⟩ = .ok () ↔
        openConnectionResponse ⟨some (.result opened')⟩ = .ok ())) ∧
    ∀ (accountKeys accountKeys' : List Key) (discovered discovered' : DiscoverSourcesResult),
      (∀ k, k ∈ accountKeys ↔ k ∈ accountKeys') → discovered.sources.Perm discovered'.sources →
      (discoverSourcesResponse accountKeys ⟨some (.result discovered)⟩ = .ok () ↔
        discoverSourcesResponse accountKeys' ⟨some (.result discovered')⟩ = .ok ()) := by
  refine ⟨fun _ => openConnectionResponse_ok, fun _ _ => discoverSourcesResponse_ok,
    fun opened accountKeys discovered ho hkeys hd s hs => ?_, fun opened opened' hp => ?_,
    fun accountKeys accountKeys' discovered discovered' hkeys hp => ?_⟩
  · rw [openConnectionResponse_ok] at ho
    rw [discoverSourcesResponse_ok] at hd
    obtain ⟨_, k, hk, hm⟩ := hd.1 s hs
    obtain ⟨account, ha, he⟩ := List.mem_map.mp ((hkeys k).mp hm)
    exact ⟨account, (filter_key ho.2).mpr ⟨ha, he.trans hk.symm⟩⟩
  · rw [openConnectionResponse_ok, openConnectionResponse_ok, (hp.map (·.key)).nodup_iff]
    simp only [hp.mem_iff]
  · rw [discoverSourcesResponse_ok, discoverSourcesResponse_ok, (hp.map (·.key)).nodup_iff]
    simp only [hp.mem_iff, hkeys]

end ProviderSdk
