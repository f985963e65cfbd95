/-
Responses with one outcome (`validation.rs`): cancellations, connection
checks, authentication, health and assets.

But for health they are one check: an outcome is there, a failure is well
formed, and what a result is checked for depends on the response. An asset is
checked for the most, against the limits its source declared
(`assetResponse_iff`).
-/
import ProviderSdk.ConnectionSetup

namespace ProviderSdk

open Checks Text V1

/-! ## Outcomes -/

/-- `match response.outcome`; `missing` names an absent outcome. -/
def outcomeResponse {R : Type} (missing : String) (check : R → Except ValidationError Unit)
    (response : ResultResponse R) : Except ValidationError Unit :=
  match response.outcome with
  | some (.result result) => check result
  | some (.error error) => adapterError error
  | none => throw (.missing missing)

/-- A response that fails with a well-formed failure, or has a result `P`. -/
def Concludes {R : Type} (P : R → Prop) (response : ResultResponse R) : Prop :=
  (∃ error, response.outcome = some (.error error) ∧ error.WellFormed) ∨
    ∃ result, response.outcome = some (.result result) ∧ P result

theorem outcomeResponse_ok {R : Type} {missing : String} {check : R → Except ValidationError Unit} {P : R → Prop}
    (hcheck : ∀ result, check result = .ok () ↔ P result) {response : ResultResponse R} :
    outcomeResponse missing check response = .ok () ↔ Concludes P response := by
  obtain ⟨outcome⟩ := response
  rcases outcome with _ | ⟨result⟩ | error
  · simp [outcomeResponse, Concludes]
  · simp [outcomeResponse, Concludes, hcheck]
  · simp [outcomeResponse, Concludes]

variable {R : Type}

/-! Of these results nothing is checked. -/

def cancelAuthenticationResponse : ResultResponse R → Except ValidationError Unit :=
  outcomeResponse "authentication cancellation outcome" fun _ => pure ()

def cancelOperationResponse : ResultResponse R → Except ValidationError Unit :=
  outcomeResponse "operation cancellation outcome" fun _ => pure ()

def describeConnectionResponse : ResultResponse R → Except ValidationError Unit :=
  outcomeResponse "connection description outcome" fun _ => pure ()

def validateConnectionResponse : ResultResponse R → Except ValidationError Unit :=
  outcomeResponse "connection validation outcome" fun _ => pure ()

def listAuthenticationMethodsResponse : ResultResponse R → Except ValidationError Unit :=
  outcomeResponse "authentication methods outcome" fun _ => pure ()

/-! ## Health -/

def healthResponse (response : HealthResponse) : Except ValidationError Unit := do
  let status ← okOr (HealthStatus.tryFrom response.status) (.invalid "health status")
  (match status, response.error with
    | .ready, none => pure ()
    | .ready, some _ => throw .errorWithPayload
    | .degraded, some error | .notReady, some error => adapterError error
    | .degraded, none | .notReady, none => throw (.missing "health error")
    | .unspecified, _ => throw (.invalid "health status"))

/-- An adapter is ready, or says in what it is not. -/
theorem healthResponse_ok {response : HealthResponse} {u : Unit} : healthResponse response = .ok u ↔
    ∃ status, HealthStatus.tryFrom response.status = some status ∧ status ≠ .unspecified ∧
      (status = .ready ↔ response.error = none) ∧ ∀ error, response.error = some error → error.WellFormed := by
  simp only [healthResponse, bind_ok, okOr_ok]
  refine exists_congr fun status => and_congr_right fun _ => ?_
  cases status <;> cases response.error <;> simp

/-! ## Authentication -/

def authenticationProgress (progress : AuthenticationProgress) : Except ValidationError Unit := do
  nonEmptyText progress.authenticationId "authentication ID"
  let status ← okOr (AuthenticationStatus.tryFrom progress.status) (.invalid "authentication status")
  reject (status = .unspecified ∨ status = .failed) (.invalid "authentication status")
  progress.accounts.forM accountSnapshot
  reject (status = .inputRequired ∧ progress.prompt.isNone) (.missing "authentication prompt")

def startAuthenticationResponse : StartAuthenticationResponse → Except ValidationError Unit :=
  outcomeResponse "authentication start outcome" authenticationProgress

def continueAuthenticationResponse : ContinueAuthenticationResponse → Except ValidationError Unit :=
  outcomeResponse "authentication continuation outcome" authenticationProgress

/-- Progress either response may report. Failed authentication is none: it is
reported as a failure. -/
structure V1.AuthenticationProgress.WellFormed (p : AuthenticationProgress) : Prop where
  authenticationId : TextOk p.authenticationId
  status : ∃ status, AuthenticationStatus.tryFrom p.status = some status ∧ status ≠ .unspecified ∧
    status ≠ .failed ∧ (status = .inputRequired → p.prompt.isSome = true)
  accounts : ∀ a ∈ p.accounts, a.WellFormed

theorem authenticationProgress_ok {p : AuthenticationProgress} {u : Unit} :
    authenticationProgress p = .ok u ↔ p.WellFormed := by
  simp only [authenticationProgress, bind_ok, nonEmptyText_ok, exists_const, okOr_ok, reject_ok, forM_ok,
    accountSnapshot_ok, not_or, not_and, Option.isNone_iff_eq_none, ← Option.isSome_iff_ne_none]
  refine ⟨fun h => ?_, fun h => ?_⟩
  · obtain ⟨hid, status, hs, ⟨hu, hf⟩, ha, hp⟩ := h
    exact ⟨hid, ⟨status, hs, hu, hf, hp⟩, ha⟩
  · obtain ⟨hid, ⟨status, hs, hu, hf, hp⟩, ha⟩ := h
    exact ⟨hid, status, hs, ⟨hu, hf⟩, ha, hp⟩

/-- What each of the checks with one outcome accepts. -/
theorem responses_conclude : (∀ r : ResultResponse R,
      (cancelAuthenticationResponse r = .ok () ↔ Concludes (fun _ => True) r) ∧
      (cancelOperationResponse r = .ok () ↔ Concludes (fun _ => True) r) ∧
      (describeConnectionResponse r = .ok () ↔ Concludes (fun _ => True) r) ∧
      (validateConnectionResponse r = .ok () ↔ Concludes (fun _ => True) r) ∧
      (listAuthenticationMethodsResponse r = .ok () ↔ Concludes (fun _ => True) r)) ∧
    (∀ r, startAuthenticationResponse r = .ok () ↔ Concludes AuthenticationProgress.WellFormed r) ∧
    ∀ r, continueAuthenticationResponse r = .ok () ↔ Concludes AuthenticationProgress.WellFormed r := by
  have hany : ∀ result : R, (pure () : Except ValidationError Unit) = .ok () ↔ True := fun _ => by simp [pure_ok]
  refine ⟨fun r => ⟨?_, ?_, ?_, ?_, ?_⟩, fun r => outcomeResponse_ok fun _ => authenticationProgress_ok,
    fun r => outcomeResponse_ok fun _ => authenticationProgress_ok⟩
  all_goals exact outcomeResponse_ok hany

/-! ## Assets -/

/-- `Sha256::digest`. -/
class Sha256 where
  digest : List UInt8 → List UInt8

/-- A `ValidationError`, or one of those for assets alone. -/
inductive AssetError where
  | validation (error : ValidationError)
  | assetTooLarge (actual : Nat) (maximum : UInt64)
  | assetLengthMismatch
  | assetContentType
  | assetHash
  deriving DecidableEq

section

variable [Sha256]

/-- What `asset_response` checks of a result. -/
def assetResult (result : ReadAssetResult) (maximumBytes : UInt64) (allowedContentTypes : List String) :
    Except AssetError Unit := do
  reject result.content.isEmpty (.validation (.empty "asset content"))
  reject (result.content.length > maximumBytes.toNat) (.assetTooLarge result.content.length maximumBytes)
  reject (result.fullLength.toNat ≠ result.content.length) .assetLengthMismatch
  reject (¬ allowedContentTypes.any fun contentType => contentType == result.contentType) .assetContentType
  reject (result.cacheControl = "" ∨ result.cacheControl.utf8ByteSize > 1024 ∨
    ¬ result.cacheControl.toList.all (fun c => c.val ≤ 0x7F) ∨ hasControl result.cacheControl)
    (.validation (.invalid "asset cache control"))
  let hash ← okOr result.hash (.validation (.missing "asset hash"))
  let algorithm ← okOr hash.algorithm (.validation (.missing "asset hash algorithm"))
  reject (algorithm.namespaceName ≠ "trakkin" ∨ algorithm.name ≠ "sha256") .assetHash
  reject (hash.digest ≠ Sha256.digest result.content) .assetHash

def assetResponse (response : ReadAssetResponse) (maximumBytes : UInt64) (allowedContentTypes : List String) :
    Except AssetError Unit :=
  match response.outcome with
  | some (.result result) => assetResult result maximumBytes allowedContentTypes
  | some (.error error) => (adapterError error).mapError .validation
  | none => throw (.validation (.missing "asset read outcome"))

/-- A text that can be the value of a header: printable ASCII on one line. -/
def HeaderText (value : String) : Prop := ∀ c ∈ value.toList, 0x20 ≤ c.toNat ∧ c.toNat < 0x7F

/-- An asset `asset_response` accepts. -/
structure V1.ReadAssetResult.WellFormed (maximumBytes : UInt64) (contentTypes : List String)
    (r : ReadAssetResult) : Prop where
  content : 1 ≤ r.content.length ∧ r.content.length ≤ maximumBytes.toNat
  fullLength : r.fullLength.toNat = r.content.length
  contentType : r.contentType ∈ contentTypes
  cacheControl : r.cacheControl ≠ "" ∧ r.cacheControl.utf8ByteSize ≤ 1024 ∧ HeaderText r.cacheControl
  hash : r.hash = some ⟨some ⟨"trakkin", "sha256"⟩, Sha256.digest r.content⟩

omit [Sha256] in
theorem headerText_iff {value : String} : HeaderText value ↔
    value.toList.all (fun c => c.val ≤ 0x7F) = true ∧ hasControl value = false := by
  rw [List.all_eq_true, hasControl_eq_false, ← forall₂_and]
  refine forall₂_congr fun c _ => ?_
  have hval : c.toNat = c.val.toNat := rfl
  simp only [isControl, Bool.or_eq_false_iff, Bool.and_eq_false_iff, decide_eq_false_iff_not, decide_eq_true_eq,
    UInt32.le_iff_toNat_le, hval, UInt32.reduceToNat]
  omega

theorem assetResult_ok {r : ReadAssetResult} {maximumBytes : UInt64} {contentTypes : List String} {u : Unit} :
    assetResult r maximumBytes contentTypes = .ok u ↔ r.WellFormed maximumBytes contentTypes := by
  have hlen : ¬ r.content.isEmpty = true ↔ 1 ≤ r.content.length := by
    rw [List.isEmpty_iff_length_eq_zero]
    omega
  have htype : (contentTypes.any fun contentType => contentType == r.contentType) = true ↔
      r.contentType ∈ contentTypes := by simp
  simp only [assetResult, bind_ok, reject_ok, hlen, gt_iff_lt, Nat.not_lt, ne_eq, not_not, htype, not_or, exists_const,
    okOr_ok]
  refine ⟨fun h => ?_, fun h => ?_⟩
  · obtain ⟨hpos, hmax, hfull, ht, ⟨hne, hsize, hascii, hplain⟩, hash, hh, algorithm, ha, ⟨hn, hs⟩, hd⟩ := h
    refine ⟨⟨hpos, hmax⟩, hfull, ht, ⟨hne, hsize, headerText_iff.mpr ⟨hascii, Bool.eq_false_iff.mpr hplain⟩⟩, ?_⟩
    obtain ⟨algorithm', digest⟩ := hash
    obtain ⟨namespaceName, name⟩ := algorithm
    simp_all
  · obtain ⟨hascii, hplain⟩ := headerText_iff.mp h.cacheControl.2.2
    obtain ⟨hne, hsize, _⟩ := h.cacheControl
    exact ⟨h.content.1, h.content.2, h.fullLength, h.contentType, ⟨hne, hsize, hascii, Bool.eq_false_iff.mp hplain⟩,
      _, h.hash, _, rfl, ⟨rfl, rfl⟩, rfl⟩

theorem assetResponse_ok {response : ReadAssetResponse} {maximumBytes : UInt64} {contentTypes : List String} :
    assetResponse response maximumBytes contentTypes = .ok () ↔
      Concludes (ReadAssetResult.WellFormed maximumBytes contentTypes) response := by
  obtain ⟨outcome⟩ := response
  rcases outcome with _ | ⟨result⟩ | error
  · simp [assetResponse, Concludes, throw_ok]
  · simp [assetResponse, Concludes, assetResult_ok]
  · simp [assetResponse, Concludes, mapError_ok]

end

/-- An asset of one byte, of a content type. -/
def smallAsset [Sha256] (contentType : String) : ReadAssetResult where
  content := [0]
  contentType
  fullLength := 1
  hash := some ⟨some ⟨"trakkin", "sha256"⟩, Sha256.digest [0]⟩
  cacheControl := "private"

/-- **Assets of a source.** What `asset_response` accepts under any limits:
a failure, or content that fits them, whose length and digest are as stated,
and that is cached by a text a header can hold. Under the limits of a source
that discovery accepts some asset is accepted, unless the source lists no
content type. -/
theorem assetResponse_iff [Sha256] [Prost] (maximumBytes : UInt64) (contentTypes : List String) :
    (∀ response, assetResponse response maximumBytes contentTypes = .ok () ↔
      Concludes (ReadAssetResult.WellFormed maximumBytes contentTypes) response) ∧
    ∀ (source : SourceSnapshot) (capabilities : SourceCapabilities), sourceSnapshot source = .ok () →
      source.capabilities = some capabilities → capabilities.assets = some ⟨maximumBytes, contentTypes⟩ →
      ((∃ result, assetResponse ⟨some (.result result)⟩ maximumBytes contentTypes = .ok ()) ↔ contentTypes ≠ []) := by
  refine ⟨fun response => assetResponse_ok, fun source capabilities hs hc ha => ?_⟩
  obtain ⟨c, hc', hw⟩ := (sourceSnapshot_ok.mp hs).capabilities
  cases hc.symm.trans hc'
  have hassets : AssetCapability.WellFormed ⟨maximumBytes, contentTypes⟩ := hw.assets _ ha
  have hone : 1 ≤ maximumBytes.toNat := by
    have hne : maximumBytes ≠ 0 := hassets.maximumBytes
    rw [ne_eq, ← UInt64.toNat_inj] at hne
    exact Nat.one_le_iff_ne_zero.mpr hne
  refine ⟨fun h hnil => ?_, fun hne => ?_⟩
  · obtain ⟨result, hr⟩ := h
    have hr := (assetResult_ok.mp hr).contentType
    rw [hnil] at hr
    cases hr
  · obtain ⟨contentType, hmem⟩ := List.exists_mem_of_ne_nil _ hne
    have hheader : "private" ≠ "" ∧ "private".utf8ByteSize ≤ 1024 ∧ HeaderText "private" :=
      ⟨by decide, by decide +kernel, headerText_iff.mpr ⟨by decide +kernel, by decide +kernel⟩⟩
    exact ⟨smallAsset contentType, assetResult_ok.mpr ⟨⟨le_rfl, hone⟩, rfl, hmem, hheader, rfl⟩⟩

end ProviderSdk
