/-
The launch of a provider (`bootstrap.rs`).

The host writes one `LaunchRequest` and a newline to the provider, which
reads no further than that line, and of a line without end no more than one
byte over its limit. A request is read exactly from the lines that hold a
valid one (`readLaunchRequest_iff`), among them the one `serde_json` prints
(`readLaunchRequest_line`).
-/
import ProviderSdk.AccountIdentity
import ProviderSdk.Bootstrap

namespace ProviderSdk

open Checks Text

/-! ## Messages in JSON -/

section

variable {V : Type}

def LaunchRequest.serialize (self : LaunchRequest) : Serialize V :=
  .struct [("bootstrapVersion", .int self.bootstrapVersion.toNat), ("processInstanceId", .str self.processInstanceId),
    ("bindAddress", .str self.bindAddress), ("launchToken", .str self.launchToken)]

def ReadyMessage.serialize (self : ReadyMessage) : Serialize V :=
  .struct [("bootstrapVersion", .int self.bootstrapVersion.toNat), ("processInstanceId", .str self.processInstanceId),
    ("address", .str self.address), ("launchToken", .str self.launchToken)]

end

/-- The handshake also asks `serde_json` for a launch request. -/
class LaunchCrates extends BootstrapCrates where
  fromStr : String → Option LaunchRequest

open BootstrapCrates LaunchCrates

/-! ## Printed lines -/

section

variable {V : Type} [SerdeJson V]

theorem lf_notMem_escapeByte (b : UInt8) : 0x0A ∉ escapeByte b := by
  by_cases hb : b ∈ escapedBytes
  · have hall : ∀ b ∈ escapedBytes, 0x0A ∉ escapeByte b := by decide +kernel
    exact hall b hb
  · rw [escapeByte_plain hb, List.mem_singleton]
    exact fun he => hb (he ▸ by decide +kernel)

/-- A string is printed on one line. -/
theorem ScalarJson.lf_notMem_str (hs : ScalarJson V) (s : String) : 0x0A ∉ jsonText (V := V) (.str s) := by
  rw [hs.str]
  intro h
  rcases List.mem_append.mp h with h | h
  · rcases List.mem_append.mp h with h | h
    · exact absurd h (by decide)
    · obtain ⟨b, _, h⟩ := List.mem_flatMap.mp h
      exact lf_notMem_escapeByte b h
  · exact absurd h (by decide)

/-- A struct is printed on one line if its fields are. -/
theorem CompactJson.lf_notMem_struct (hc : CompactJson V) (hs : ScalarJson V) {fields : List (String × Serialize V)}
    (h : ∀ f ∈ fields, 0x0A ∉ jsonText f.2) : 0x0A ∉ jsonText (.struct fields) := by
  rw [hc.struct]
  intro hm
  rcases List.mem_append.mp hm with hm | hm
  · rcases List.mem_append.mp hm with hm | hm
    · exact absurd hm (by decide)
    · rcases mem_intercalate hm with hm | ⟨x, hx, hm⟩
      · exact absurd hm (by decide)
      · obtain ⟨f, hf, rfl⟩ := List.mem_map.mp hx
        rcases List.mem_append.mp hm with hm | hm
        · rcases List.mem_append.mp hm with hm | hm
          · exact hs.lf_notMem_str f.1 hm
          · exact absurd hm (by decide)
        · exact h f hf hm
  · exact absurd hm (by decide)

end

/-! ## Valid messages -/

section

variable [BootstrapCrates]

/-- What `validate_identity` accepts. -/
structure ValidIdentity (version : UInt32) (process token : String) : Prop where
  version : version = bootstrapVersion
  process : process ≠ ""
  token : ∃ t, LaunchToken.new token = .ok t

theorem LaunchToken.new_ok {value : String} {t : LaunchToken} :
    LaunchToken.new value = .ok t ↔ t.value = value := by
  rw [LaunchToken.new]
  refine ⟨fun h => ?_, fun h => ?_⟩
  · split at h
    · cases h
    · split at h
      · cases h
        rfl
      · cases h
  · subst h
    rw [dif_neg t.nonempty, dif_pos t.ascii]

theorem validateIdentity_ok {version : UInt32} {process token : String} {u : Unit} :
    validateIdentity version process token = .ok u ↔ ValidIdentity version process token := by
  simp only [validateIdentity, bind_ok, reject_ok, not_not, exists_const, discard_ok, mapError_ok, ne_eq]
  refine ⟨fun h => ⟨h.1, h.2.1, h.2.2.2⟩, fun h => ⟨h.version, h.process, fun he => ?_, h.token⟩⟩
  obtain ⟨t, ht⟩ := h.token
  exact t.nonempty (he ▸ LaunchToken.new_ok.mp ht)

theorem loopbackAddress_ok {address : String} {a : SocketAddr} :
    loopbackAddress address = .ok a ↔ parseSocketAddr address = some a ∧ a.ip.isLoopback = true := by
  simp only [loopbackAddress, bind_ok, okOr_ok, reject_ok, exists_const, pure_ok]
  refine ⟨fun h => ?_, fun h => ⟨a, h.1, by rw [h.2]; decide, rfl⟩⟩
  obtain ⟨_, hp, hl, rfl⟩ := h
  exact ⟨hp, by simpa using hl⟩

theorem LaunchRequest.validate_ok {launch : LaunchRequest} {a : SocketAddr} : launch.validate = .ok a ↔
    ValidIdentity launch.bootstrapVersion launch.processInstanceId launch.launchToken ∧
      parseSocketAddr launch.bindAddress = some a ∧ a.ip.isLoopback = true := by
  simp only [validate, bind_ok, validateIdentity_ok, exists_const, loopbackAddress_ok]

theorem ReadyMessage.validate_ok {m : ReadyMessage} {a : SocketAddr} : m.validate = .ok a ↔
    ValidIdentity m.bootstrapVersion m.processInstanceId m.launchToken ∧
      (parseSocketAddr m.address = some a ∧ a.ip.isLoopback = true) ∧ a.port ≠ 0 := by
  simp only [validate, bind_ok, validateIdentity_ok, exists_const, loopbackAddress_ok, reject_ok, pure_ok]
  refine and_congr_right fun _ => ⟨fun h => ?_, fun h => ⟨a, h.1, h.2, rfl⟩⟩
  obtain ⟨_, h, hp, rfl⟩ := h
  exact ⟨h, hp⟩

end

/-! ## The reader -/

inductive ReadLaunchError where
  | io
  | missingMessage
  | message (e : LaunchMessageError)
  deriving DecidableEq

variable [LaunchCrates] {launch : LaunchRequest} {line rest input : List UInt8}

/-- What `read_launch_request` makes of the line it has read; `read_line`
fails on one that is no UTF-8. -/
def readLaunchLine (line : List UInt8) : Except ReadLaunchError LaunchRequest := do
  let line ← okOr (String.fromUTF8? ⟨line.toArray⟩) .io
  reject (line.utf8ByteSize = 0) .missingMessage
  (checkMessageSize line.utf8ByteSize).mapError .message
  let launch ← okOr (fromStr line) (.message .json)
  discard <| launch.validate.mapError .message
  pure launch

/-- On a reader in memory: the result, and what is left to read. -/
def readLaunchRequest (input : List UInt8) : Except ReadLaunchError LaunchRequest × List UInt8 :=
  let line := readUntil 0x0A (input.take (maximumBootstrapMessageBytes + 1))
  (readLaunchLine line, input.drop line.length)

/-- A line that holds a launch request. -/
structure LaunchRequest.Line (launch : LaunchRequest) (line : String) : Prop where
  nonempty : line ≠ ""
  fits : line.utf8ByteSize ≤ maximumBootstrapMessageBytes
  json : fromStr line = some launch
  valid : ∃ a, launch.validate = .ok a

theorem readLaunchLine_ok :
    readLaunchLine line = .ok launch ↔ ∃ s : String, utf8 s = line ∧ launch.Line s := by
  simp only [readLaunchLine, bind_ok, okOr_ok, reject_ok, mapError_ok, checkMessageSize_ok, discard_ok, pure_ok,
    exists_const, String.utf8ByteSize_eq_zero_iff]
  refine ⟨fun h => ?_, fun h => ?_⟩
  · obtain ⟨s, hs, hn, hlen, l, hl, hv, rfl⟩ := h
    have hbytes : (utf8 s).toByteArray = (⟨line.toArray⟩ : ByteArray) := by
      rw [← toByteArray_of_fromUTF8 hs, utf8, ← String.utf8Encode_toList, List.utf8Encode]
    refine ⟨s, ?_, hn, hlen, hl, hv⟩
    have hdata := congrArg ByteArray.data hbytes
    rw [List.data_toByteArray] at hdata
    exact congrArg Array.toList hdata
  · obtain ⟨s, rfl, hs⟩ := h
    exact ⟨s, fromUTF8_utf8 s, hs.nonempty, hs.fits, launch, hs.json, hs.valid, rfl⟩

theorem readLaunchRequest_ok : readLaunchRequest input = (.ok launch, rest) ↔
    ∃ line : String, input = utf8 line ++ rest ∧ EndsLine 0x0A (utf8 line) rest ∧ launch.Line line := by
  -- a line that fits is whole in what the reader is limited to
  have hlen : ∀ s, launch.Line s → (utf8 s).length < maximumBootstrapMessageBytes + 1 := by
    intro s hline
    rw [length_utf8]
    exact Nat.lt_succ_of_le hline.fits
  simp only [readLaunchRequest, Prod.mk.injEq, readLaunchLine_ok]
  refine ⟨fun h => ?_, fun h => ?_⟩
  · obtain ⟨⟨s, hs, hline⟩, hrest⟩ := h
    obtain ⟨hin, hends⟩ := (readUntil_take (hlen s hline)).mp ⟨hs.symm, hs ▸ hrest⟩
    exact ⟨s, hin, hends, hline⟩
  · obtain ⟨s, hin, hends, hline⟩ := h
    obtain ⟨hs, hrest⟩ := (readUntil_take (hlen s hline)).mpr ⟨hin, hends⟩
    rw [hs]
    exact ⟨⟨s, rfl, hline⟩, hrest⟩

/-- **Which launches are read.** A request is read, and `rest` left unread,
exactly where the input is a line that holds the request, with `rest` after
it. Whatever the input, no more is read than its first line, nor more than a
byte over 16 KiB. -/
theorem readLaunchRequest_iff (input : List UInt8) :
    (∀ launch rest, readLaunchRequest input = (.ok launch, rest) ↔
      ∃ line : String, input = utf8 line ++ rest ∧ EndsLine 0x0A (utf8 line) rest ∧ launch.Line line) ∧
    ∃ taken, input = taken ++ (readLaunchRequest input).2 ∧ taken.length ≤ 16 * 1024 + 1 ∧
      0x0A ∉ taken.dropLast := by
  refine ⟨fun launch rest => readLaunchRequest_ok, ?_⟩
  obtain ⟨rest, hcut, hends⟩ := readUntil_ends 0x0A (input.take (maximumBootstrapMessageBytes + 1))
  rw [readLaunchRequest]
  dsimp only
  generalize readUntil 0x0A (input.take (maximumBootstrapMessageBytes + 1)) = line at *
  have hfront : line <+: input.take (maximumBootstrapMessageBytes + 1) := ⟨rest, hcut.symm⟩
  refine ⟨line, ?_, ?_, ?_⟩
  · exact (List.prefix_iff_eq_append.mp (hfront.trans (List.take_prefix _ _))).symm
  · exact Nat.le_trans hfront.length_le (List.length_take_le _ _)
  · rcases hends with ⟨body, rfl, hbody⟩ | ⟨hline, _⟩
    · rwa [List.dropLast_concat]
    · exact fun h => hline ((List.dropLast_sublist _).subset h)

/-! ## A printed request -/

section

variable {V : Type} [SerdeJson V]

theorem LaunchRequest.lf_notMem (hc : CompactJson V) (hs : ScalarJson V) {a : SocketAddr}
    (h : launch.validate = .ok a) : 0x0A ∉ jsonText (V := V) launch.serialize := by
  refine hc.lf_notMem_struct hs fun f hf => ?_
  simp only [List.mem_cons, List.not_mem_nil, or_false] at hf
  rcases hf with rfl | rfl | rfl | rfl
  · show 0x0A ∉ jsonText (V := V) (.int launch.bootstrapVersion.toNat)
    rw [(LaunchRequest.validate_ok.mp h).1.version, hs.int]
    decide
  · exact hs.lf_notMem_str _
  · exact hs.lf_notMem_str _
  · exact hs.lf_notMem_str _

/-- The line a valid request is printed on is read, and nothing after it,
where it fits. -/
theorem readLaunchRequest_line (hc : CompactJson V) (hs : ScalarJson V) {a : SocketAddr}
    (h : launch.validate = .ok a) {line : String} (hline : utf8 line = jsonText (V := V) launch.serialize ++ [0x0A])
    (hread : fromStr line = some launch) : readLaunchRequest (utf8 line ++ rest) = (.ok launch, rest) ↔
      line.utf8ByteSize ≤ maximumBootstrapMessageBytes := by
  rw [readLaunchRequest_ok]
  refine ⟨fun h => ?_, fun hfits => ⟨line, rfl, .inl ⟨_, hline, launch.lf_notMem hc hs h⟩, ?_, hfits, hread, a, h⟩⟩
  · obtain ⟨s, hin, _, hl⟩ := h
    rw [utf8_injective (List.append_cancel_right hin)]
    exact hl.fits
  · intro hempty
    rw [hempty] at hline
    have hlen := congrArg List.length hline
    rw [List.length_append] at hlen
    exact absurd hlen (by simp [utf8])

end

end ProviderSdk
