/-
The handshake of a launched provider (`bootstrap.rs`).

A provider that listens says so with one `ReadyMessage` and a newline, which
the host reads back for the launch it made. The writer checks the message by
itself and its length with the newline; the reader checks the length of
whatever arrives and the message against the launch. They agree: what is
written is read by exactly the launches the message is valid for
(`writeReadyMessage_read`), and where it is not written nothing is.
-/
import ProviderSdk.Lib.Checks
import ProviderSdk.Lib.Text
import ProviderSdk.SampleJson

namespace ProviderSdk

open Checks Text

/-! ## Addresses -/

inductive IpAddr where
  | v4 (octets : Vector UInt8 4)
  | v6 (segments : Vector UInt16 8)
  deriving DecidableEq

/-- `127.0.0.0/8`, and `::1`. -/
def IpAddr.isLoopback : IpAddr → Bool
  | .v4 octets => octets[0] == 127
  | .v6 segments => segments == #v[0, 0, 0, 0, 0, 0, 0, 1]

inductive SocketAddr where
  | v4 (octets : Vector UInt8 4) (port : UInt16)
  | v6 (segments : Vector UInt16 8) (port : UInt16) (flowinfo scopeId : UInt32)
  deriving DecidableEq

def SocketAddr.ip : SocketAddr → IpAddr
  | .v4 octets _ => .v4 octets
  | .v6 segments _ _ _ => .v6 segments

def SocketAddr.port : SocketAddr → UInt16
  | .v4 _ port => port
  | .v6 _ port _ _ => port

/-! ## Messages -/

structure LaunchRequest where
  bootstrapVersion : UInt32
  processInstanceId : String
  bindAddress : String
  launchToken : String
  deriving DecidableEq

structure ReadyMessage where
  bootstrapVersion : UInt32
  processInstanceId : String
  address : String
  launchToken : String
  deriving DecidableEq

/-- What the handshake asks of code elsewhere: `serde_json` on a ready
message, the parser of socket addresses, and whether `tonic` takes a text for
an ASCII metadata value. -/
class BootstrapCrates where
  toVec : ReadyMessage → Option (List UInt8)
  fromSlice : List UInt8 → Option ReadyMessage
  parseSocketAddr : String → Option SocketAddr
  isAsciiMetadata : String → Bool

open BootstrapCrates

def bootstrapVersion : UInt32 := 1

def maximumBootstrapMessageBytes : Nat := 16 * 1024

structure InvalidLaunchToken where
  deriving DecidableEq

inductive LaunchMessageError where
  | json
  | messageTooLarge
  | unsupportedVersion (version : UInt32)
  | missingProcessInstanceId
  | missingLaunchToken
  | invalidBindAddress
  | nonLoopbackAddress
  | nonListeningAddress
  | processInstanceMismatch
  | launchTokenMismatch
  | invalidToken (e : InvalidLaunchToken)
  deriving DecidableEq

def checkMessageSize (bytes : Nat) : Except LaunchMessageError Unit :=
  reject (bytes > maximumBootstrapMessageBytes) .messageTooLarge

theorem checkMessageSize_ok {bytes : Nat} {u : Unit} :
    checkMessageSize bytes = .ok u ↔ bytes ≤ maximumBootstrapMessageBytes := by
  rw [checkMessageSize, reject_ok, gt_iff_lt, Nat.not_lt]

section

variable [BootstrapCrates]

/-- A token that can be sent with a request. -/
structure LaunchToken where
  value : String
  nonempty : value ≠ ""
  ascii : isAsciiMetadata value = true

def LaunchToken.new (value : String) : Except InvalidLaunchToken LaunchToken :=
  if hn : value = "" then .error ⟨⟩
  else if ha : isAsciiMetadata value = true then .ok ⟨value, hn, ha⟩
  else .error ⟨⟩

def validateIdentity (version : UInt32) (process token : String) : Except LaunchMessageError Unit := do
  reject (version ≠ bootstrapVersion) (.unsupportedVersion version)
  reject (process = "") .missingProcessInstanceId
  reject (token = "") .missingLaunchToken
  discard <| (LaunchToken.new token).mapError .invalidToken

def loopbackAddress (address : String) : Except LaunchMessageError SocketAddr := do
  let address ← okOr (parseSocketAddr address) .invalidBindAddress
  reject (!address.ip.isLoopback) .nonLoopbackAddress
  pure address

def LaunchRequest.validate (self : LaunchRequest) : Except LaunchMessageError SocketAddr := do
  validateIdentity self.bootstrapVersion self.processInstanceId self.launchToken
  loopbackAddress self.bindAddress

def ReadyMessage.validate (self : ReadyMessage) : Except LaunchMessageError SocketAddr := do
  validateIdentity self.bootstrapVersion self.processInstanceId self.launchToken
  let address ← loopbackAddress self.address
  reject (address.port = 0) .nonListeningAddress
  pure address

def ReadyMessage.validateFor (self : ReadyMessage) (launch : LaunchRequest) :
    Except LaunchMessageError SocketAddr := do
  discard launch.validate
  let address ← self.validate
  reject (self.processInstanceId ≠ launch.processInstanceId) .processInstanceMismatch
  reject (self.launchToken ≠ launch.launchToken) .launchTokenMismatch
  pure address

def parseReadyMessage (bytes : List UInt8) (launch : LaunchRequest) :
    Except LaunchMessageError (ReadyMessage × SocketAddr) := do
  checkMessageSize bytes.length
  let ready ← okOr (fromSlice bytes) .json
  let address ← ready.validateFor launch
  pure (ready, address)

/-! ## The writer -/

/-- Calls on a writer in memory, a `Vec<u8>`: what a call has written stays
written when it fails. -/
abbrev WriterM : Type → Type := ExceptT LaunchMessageError (StateM (List UInt8))

/-- The result of a call on a writer, and what the writer then holds. -/
def WriterM.call {α : Type} (x : WriterM α) (writer : List UInt8) : Except LaunchMessageError α × List UInt8 :=
  x.run.run writer

def WriterM.writeAll (bytes : List UInt8) : WriterM Unit := modify (· ++ bytes)

/-- A `Vec<u8>` has nothing to flush. -/
def WriterM.flush : WriterM Unit := pure ()

def writeReadyMessage (message : ReadyMessage) : WriterM Unit := do
  let _ ← ofExcept message.validate
  let encoded ← ofExcept (okOr (toVec message) .json)
  let encoded := encoded ++ [0x0A]
  ofExcept (checkMessageSize encoded.length)
  WriterM.writeAll encoded
  WriterM.flush

/-- The checks of `write_ready_message`, all of which come before it writes,
and what it then writes. -/
def readyBytes (message : ReadyMessage) : Except LaunchMessageError (List UInt8) := do
  let _ ← message.validate
  let encoded ← okOr (toVec message) .json
  checkMessageSize (encoded ++ [0x0A]).length
  pure (encoded ++ [0x0A])

variable {m : ReadyMessage} {launch : LaunchRequest}

theorem call_writeReadyMessage (before : List UInt8) : (writeReadyMessage m).call before =
    match readyBytes m with
    | .ok bytes => (.ok (), before ++ bytes)
    | .error e => (.error e, before) := by
  have heq : writeReadyMessage m =
      ofExcept (readyBytes m) >>= fun bytes => WriterM.writeAll bytes >>= fun _ => WriterM.flush := by
    simp only [writeReadyMessage, readyBytes, ofExcept_bind, ofExcept_pure, bind_assoc, pure_bind]
  rw [heq]
  cases readyBytes m with
  | ok bytes => exact run_bind_ok run_ofExcept
  | error e => exact run_bind_error run_ofExcept

theorem call_writeReadyMessage_ok {before after : List UInt8} :
    (writeReadyMessage m).call before = (.ok (), after) ↔
      ∃ bytes, readyBytes m = .ok bytes ∧ before ++ bytes = after := by
  rw [call_writeReadyMessage]
  cases readyBytes m <;> simp

/-- A call that fails leaves the writer as it was. -/
theorem call_writeReadyMessage_error {before after : List UInt8} {e : LaunchMessageError}
    (h : (writeReadyMessage m).call before = (.error e, after)) : after = before := by
  rw [call_writeReadyMessage] at h
  cases hb : readyBytes m with
  | ok bytes =>
    rw [hb] at h
    cases h
  | error e' =>
    rw [hb] at h
    cases h
    rfl

theorem readyBytes_ok {bytes : List UInt8} : readyBytes m = .ok bytes ↔ (∃ a, m.validate = .ok a) ∧
    (∃ encoded, toVec m = some encoded ∧ encoded ++ [0x0A] = bytes) ∧
      bytes.length ≤ maximumBootstrapMessageBytes := by
  simp only [readyBytes, bind_ok, okOr_ok, checkMessageSize_ok, pure_ok, exists_const]
  refine ⟨fun h => ?_, fun h => ?_⟩
  · obtain ⟨a, hv, encoded, he, hlen, rfl⟩ := h
    exact ⟨⟨a, hv⟩, ⟨encoded, he, rfl⟩, hlen⟩
  · obtain ⟨⟨a, hv⟩, ⟨encoded, he, rfl⟩, hlen⟩ := h
    exact ⟨a, hv, encoded, he, hlen, rfl⟩

/-- A message is valid for the launches that are valid and that it repeats
the process instance and the token of. -/
theorem ReadyMessage.validateFor_ok {a : SocketAddr} : m.validateFor launch = .ok a ↔
    (∃ b, launch.validate = .ok b) ∧ m.validate = .ok a ∧
      m.processInstanceId = launch.processInstanceId ∧ m.launchToken = launch.launchToken := by
  simp only [validateFor, bind_ok, discard_ok, reject_ok, pure_ok, exists_const, not_not, ne_eq]
  refine and_congr_right fun _ => ⟨fun h => ?_, fun h => ?_⟩
  · obtain ⟨_, hv, hp, ht, rfl⟩ := h
    exact ⟨hv, hp, ht⟩
  · obtain ⟨hv, hp, ht⟩ := h
    exact ⟨a, hv, hp, ht, rfl⟩

/-- A text that holds a message is read for the launches the message is
valid for. -/
theorem parseReadyMessage_ok {bytes : List UInt8} (hlen : bytes.length ≤ maximumBootstrapMessageBytes)
    (hm : fromSlice bytes = some m) {r : ReadyMessage × SocketAddr} :
    parseReadyMessage bytes launch = .ok r ↔ ∃ address, m.validateFor launch = .ok address ∧ r = (m, address) := by
  simp only [parseReadyMessage, bind_ok, checkMessageSize_ok, okOr_ok, pure_ok, exists_const, hlen, true_and, hm,
    Option.some.injEq, exists_eq_left']
  exact exists_congr fun address => and_congr_right fun _ => eq_comm

end

/-! ## Crates of a handshake on plain texts -/

namespace PlainCrates

def digits (limit : Nat) (text : List UInt8) : Option Nat :=
  let value := text.foldl (fun n digit => 10 * n + (digit.toNat - 0x30)) 0
  if text ≠ [] ∧ (text.all fun b => 0x30 ≤ b ∧ b ≤ 0x39) ∧ value < limit then some value else none

/-- A part of an IPv4 address, which has no leading zero. -/
def octet (text : List UInt8) : Option UInt8 :=
  if text.length = 1 ∨ text.head? ≠ some 0x30 then (digits 0x100 text).map UInt8.ofNat else none

/-- The socket addresses with an IPv4 address. -/
def parseSocketAddr (address : String) : Option SocketAddr :=
  match (utf8 address).splitOn 0x3A with
  | [ip, port] =>
    match ip.splitOn 0x2E with
    | [a, b, c, d] => do
      pure (.v4 #v[← octet a, ← octet b, ← octet c, ← octet d] (UInt16.ofNat (← digits 0x10000 port)))
    | _ => none
  | _ => none

def serialize (m : ReadyMessage) : Serialize SampleJson :=
  .struct [("bootstrapVersion", .int m.bootstrapVersion.toNat), ("processInstanceId", .str m.processInstanceId),
    ("address", .str m.address), ("launchToken", .str m.launchToken)]

/-- What comes after `literal`. -/
def expect (literal : String) (bytes : List UInt8) : Option (List UInt8) :=
  if (utf8 literal).isPrefixOf bytes then some (bytes.drop (utf8 literal).length) else none

/-- A string without escapes, up to its closing quote. -/
def plain (bytes : List UInt8) : Option (String × List UInt8) := do
  let text := bytes.takeWhile (· ≠ 0x22)
  let s ← if 0x5C ∈ text then none else String.fromUTF8? ⟨text.toArray⟩
  pure (s, bytes.drop text.length)

/-- The messages as `serialize` has them printed, without escapes. -/
def parseReady (bytes : List UInt8) : Option ReadyMessage := do
  let bytes ← expect "\x7b\"bootstrapVersion\":" bytes
  let number := bytes.takeWhile (· ≠ 0x2C)
  let version ← digits (2 ^ 32) number
  let bytes ← expect ",\"processInstanceId\":\"" (bytes.drop number.length)
  let (processInstanceId, bytes) ← plain bytes
  let bytes ← expect "\",\"address\":\"" bytes
  let (address, bytes) ← plain bytes
  let bytes ← expect "\",\"launchToken\":\"" bytes
  let (launchToken, bytes) ← plain bytes
  let bytes ← expect "\"\x7d" bytes
  if bytes.all fun b => b ∈ [0x20, 0x09, 0x0A, 0x0D] then
    some ⟨UInt32.ofNat version, processInstanceId, address, launchToken⟩
  else none

end PlainCrates

/-- On texts without escapes, and IPv4 addresses, what the crates do. -/
instance : BootstrapCrates where
  toVec m := some (jsonText (PlainCrates.serialize m))
  fromSlice := PlainCrates.parseReady
  parseSocketAddr := PlainCrates.parseSocketAddr
  isAsciiMetadata value := (utf8 value).all fun b => b = 0x09 ∨ 0x20 ≤ b ∧ b ≠ 0x7F

/-! ## The handshake -/

/-- **Written whole or not at all, and read by its launch.** Where a ready
message is not written, nothing is. What is written fits, is read for exactly
the launches the message is valid for, as the message with its address, and
for no launch with another process instance or token. -/
theorem writeReadyMessage_read [BootstrapCrates] (m : ReadyMessage)
    (hjson : ∀ encoded, toVec m = some encoded → fromSlice (encoded ++ [0x0A]) = some m) (before : List UInt8) :
    (∀ e after, (writeReadyMessage m).call before = (.error e, after) → after = before) ∧
      ∀ after, (writeReadyMessage m).call before = (.ok (), after) →
        ∃ written, after = before ++ written ∧ written.length ≤ 16 * 1024 ∧
          (∀ launch r, parseReadyMessage written launch = .ok r ↔
            ∃ address, m.validateFor launch = .ok address ∧ r = (m, address)) ∧
          ∀ launch, launch.processInstanceId ≠ m.processInstanceId ∨ launch.launchToken ≠ m.launchToken →
            ∀ r, parseReadyMessage written launch ≠ .ok r := by
  refine ⟨fun e after h => call_writeReadyMessage_error h, fun after h => ?_⟩
  obtain ⟨bytes, hb, rfl⟩ := call_writeReadyMessage_ok.mp h
  obtain ⟨_, ⟨encoded, he, rfl⟩, hlen⟩ := readyBytes_ok.mp hb
  have hm := hjson encoded he
  refine ⟨_, rfl, hlen, fun launch r => parseReadyMessage_ok hlen hm, fun launch hother r h => ?_⟩
  obtain ⟨address, hv, _⟩ := (parseReadyMessage_ok hlen hm).mp h
  obtain ⟨_, _, hp, ht⟩ := ReadyMessage.validateFor_ok.mp hv
  rcases hother with hother | hother
  · exact hother hp.symm
  · exact hother ht.symm

def sampleReady : ReadyMessage := ⟨1, "process-1", "127.0.0.1:1234", "secret-token"⟩

def sampleLaunch : LaunchRequest := ⟨1, "process-1", "127.0.0.1:0", "secret-token"⟩

theorem sampleReady_read : ∃ written, (writeReadyMessage sampleReady).call [] = (.ok (), written) ∧
    written.length ≤ 16 * 1024 ∧
    parseReadyMessage written sampleLaunch = .ok (sampleReady, .v4 #v[127, 0, 0, 1] 1234) := by
  have hwrite : (writeReadyMessage sampleReady).call [] =
      (.ok (), jsonText (PlainCrates.serialize sampleReady) ++ [0x0A]) := by decide +kernel
  have hjson : fromSlice (jsonText (PlainCrates.serialize sampleReady) ++ [0x0A]) = some sampleReady := by
    decide +kernel
  obtain ⟨_, hread⟩ := writeReadyMessage_read sampleReady
    (fun encoded he => by rw [← Option.some.inj he]; exact hjson) []
  obtain ⟨written, he, hlen, hparse, _⟩ := hread _ hwrite
  rw [List.nil_append] at he
  refine ⟨written, he ▸ hwrite, hlen, (hparse sampleLaunch _).mpr ⟨_, ?_, rfl⟩⟩
  decide +kernel

end ProviderSdk
