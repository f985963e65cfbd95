/-
How a launched provider starts to serve (`bootstrap.rs`).

It binds the address of its launch, announces where it listens, closes the
writer, and serves calls that carry the launch's token. It serves nothing it
has not announced, and a writer that breaks off is left with the front of an
announcement (`serveAdapter_announces`). And where the launch came on one
line as `serde_json` prints it, whatever the listener's port, the
announcement fits, and the host reads the address from it and gets its calls
through (`handshake`).
-/
import ProviderSdk.Launch
import ProviderSdk.SocketText

namespace ProviderSdk

open Checks Text BootstrapCrates LaunchCrates

/-! ## Tokens on calls -/

/-- The ASCII values in `tonic`'s metadata of a call, as bytes: the first
value of a key, and a key given one value for all it had. -/
class MetadataMap (M : Type) where
  get : M → String → Option (List UInt8)
  insert : M → String → List UInt8 → M

def launchTokenHeader : String := "x-trakkin-launch-token"

/-- A token inserted is the token found. -/
structure MetadataMap.Lawful (M : Type) [MetadataMap M] : Prop where
  get_insert : ∀ (metadata : M) (value : List UInt8),
    get (insert metadata launchTokenHeader value) launchTokenHeader = some value

inductive Status where
  | unauthenticated (message : String)
  deriving DecidableEq

/-- The token calls are expected to carry. -/
structure LaunchTokenInterceptor where
  expected : List UInt8
  deriving DecidableEq

section

variable {M : Type} [MetadataMap M]

def LaunchTokenInterceptor.call (self : LaunchTokenInterceptor) (metadata : M) : Except Status M :=
  if (MetadataMap.get metadata launchTokenHeader).any fun actual => actual = self.expected then .ok metadata
  else .error (.unauthenticated "invalid launch token")

theorem LaunchTokenInterceptor.call_ok {self : LaunchTokenInterceptor} {metadata passed : M} :
    self.call metadata = .ok passed ↔
      MetadataMap.get metadata launchTokenHeader = some self.expected ∧ metadata = passed := by
  rw [call]
  cases hget : MetadataMap.get metadata launchTokenHeader with
  | none => simp
  | some actual => by_cases h : actual = self.expected <;> simp [h]

variable [BootstrapCrates]

def LaunchToken.apply (self : LaunchToken) (metadata : M) : M :=
  MetadataMap.insert metadata launchTokenHeader (utf8 self.value)

end

def LaunchToken.interceptor [BootstrapCrates] (self : LaunchToken) : LaunchTokenInterceptor := ⟨utf8 self.value⟩

/-! ## Labels of calls -/

def adapterServicePathPrefix : String := "/trakkin.adapter.v1.AdapterService/"

def completionServicePathPrefix : String := "/trakkin.adapter.v1.CompletionService/"

/-- `str::strip_prefix` -/
def stripFront (front path : String) : Option String :=
  if front.toList.isPrefixOf path.toList then some (.ofList (path.toList.drop front.toList.length)) else none

/-- The method a call is traced by. -/
def rpcMethod (path : String) : String :=
  (((stripFront adapterServicePathPrefix path).or (stripFront completionServicePathPrefix path)).filter
    fun method => !method.isEmpty && !method.toList.contains '/').getD "Unknown"

theorem stripFront_some {front path method : String} :
    stripFront front path = some method ↔ path = front ++ method := by
  rw [stripFront, Option.ite_none_right_eq_some, List.isPrefixOf_iff_prefix, Option.some.injEq]
  refine ⟨fun h => ?_, fun h => ?_⟩
  · obtain ⟨⟨rest, hrest⟩, rfl⟩ := h
    rw [← hrest, List.drop_left]
    exact String.toList_inj.mp (by simp [← hrest])
  · subst h
    simp

/-- A method's name is one segment of a path. -/
def IsMethod (method : String) : Prop := method ≠ "" ∧ '/' ∉ method.toList

/-- A path is one service's only. -/
theorem servicePathPrefix_ne (m m' : String) :
    adapterServicePathPrefix ++ m ≠ completionServicePathPrefix ++ m' := by
  intro h
  have hlist : adapterServicePathPrefix.toList ++ m.toList = completionServicePathPrefix.toList ++ m'.toList := by
    rw [← String.toList_append, h, String.toList_append]
  have htake := congrArg (List.take 21) hlist
  rw [List.take_append_of_le_length (by decide), List.take_append_of_le_length (by decide)] at htake
  exact absurd htake (by decide)

/-- No call is traced by anything but a method of the two services. -/
theorem rpcMethod_cases (path : String) :
    IsMethod (rpcMethod path) ∧ (path = adapterServicePathPrefix ++ rpcMethod path ∨
      path = completionServicePathPrefix ++ rpcMethod path) ∨
    rpcMethod path = "Unknown" ∧ ∀ method, IsMethod method →
      path ≠ adapterServicePathPrefix ++ method ∧ path ≠ completionServicePathPrefix ++ method := by
  obtain ⟨found, hfound⟩ : ∃ found, (stripFront adapterServicePathPrefix path).or
      (stripFront completionServicePathPrefix path) = found := ⟨_, rfl⟩
  have hsome : ∀ method, found = some method ↔
      path = adapterServicePathPrefix ++ method ∨ path = completionServicePathPrefix ++ method := by
    intro method
    rw [← hfound, Option.or_eq_some_iff, stripFront_some, stripFront_some]
    refine or_congr_right ⟨fun h => h.2, fun h => ⟨?_, h⟩⟩
    rw [Option.eq_none_iff_forall_ne_some]
    intro m hm
    rw [stripFront_some, h] at hm
    exact servicePathPrefix_ne m method hm.symm
  have hvalid : ∀ method : String, (!method.isEmpty && !method.toList.contains '/') = true ↔ IsMethod method := by
    intro method
    simp [IsMethod]
  rw [rpcMethod, hfound]
  cases found with
  | none =>
    refine .inr ⟨rfl, fun method _ => not_or.mp fun h => ?_⟩
    cases (hsome method).mpr h
  | some method =>
    by_cases hm : IsMethod method
    · rw [Option.filter_some, if_pos ((hvalid method).mpr hm)]
      exact .inl ⟨hm, (hsome method).mp rfl⟩
    · rw [Option.filter_some, if_neg ((hvalid method).not.mpr hm)]
      refine .inr ⟨rfl, fun method' hm' => not_or.mp fun h => ?_⟩
      cases (hsome method').mpr h
      exact hm hm'

/-! ## The writer -/

/-- Writing the announcement fails where the writer does, too. -/
inductive WriteReadyError where
  | io
  | message (e : LaunchMessageError)
  deriving DecidableEq

/-- A writer of any kind: how many bytes of a buffer `write_all` gets written
(all of them, unless it fails on the way), and whether `flush` succeeds. -/
structure Writer where
  taken : List UInt8 → Nat
  flushes : Bool

/-- Calls on a writer: what it took before it failed stays written. -/
abbrev WriteM : Type → Type := ExceptT WriteReadyError (StateM (List UInt8))

def WriteM.call {α : Type} (x : WriteM α) (written : List UInt8) : Except WriteReadyError α × List UInt8 :=
  x.run.run written

namespace Writer

def writeAll (self : Writer) (bytes : List UInt8) : WriteM Unit := do
  modify (· ++ bytes.take (self.taken bytes))
  ofExcept (reject (self.taken bytes < bytes.length) .io)

def flush (self : Writer) : WriteM Unit := ofExcept (reject (!self.flushes) .io)

/-- A buffer is written whole, and flushed. -/
def Takes (self : Writer) (bytes : List UInt8) : Prop := bytes.length ≤ self.taken bytes ∧ self.flushes = true

instance (self : Writer) (bytes : List UInt8) : Decidable (self.Takes bytes) :=
  inferInstanceAs (Decidable (_ ∧ _))

theorem run_writeAll_flush (self : Writer) (bytes before : List UInt8) :
    (self.writeAll bytes >>= fun _ => self.flush).run.run before =
      (reject (¬ self.Takes bytes) .io, before ++ bytes.take (self.taken bytes)) := by
  have hall : (self.writeAll bytes).run.run before =
      (reject (self.taken bytes < bytes.length) .io, before ++ bytes.take (self.taken bytes)) :=
    (run_bind_ok rfl).trans run_ofExcept
  by_cases hlt : self.taken bytes < bytes.length
  · have htakes : ¬ self.Takes bytes := fun h => Nat.not_lt.mpr h.1 hlt
    rw [reject, if_pos hlt] at hall
    rw [run_bind_error hall, reject, if_pos htakes]
  · rw [reject, if_neg hlt] at hall
    rw [run_bind_ok hall, flush, run_ofExcept]
    congr 1
    simp [reject, Takes, Nat.not_lt.mp hlt]

section

variable [BootstrapCrates] {m : ReadyMessage}

/-- `write_ready_message` on any writer. -/
def writeReadyMessage (self : Writer) (message : ReadyMessage) : WriteM Unit := do
  let _ ← ofExcept (message.validate.mapError .message)
  let encoded ← ofExcept (okOr (toVec message) (.message .json))
  let encoded := encoded ++ [0x0A]
  ofExcept ((checkMessageSize encoded.length).mapError .message)
  self.writeAll encoded
  self.flush

/-- The checks come before anything is written; then the writer is on its
own. -/
theorem call_writeReadyMessage (self : Writer) (before : List UInt8) : (self.writeReadyMessage m).call before =
    match readyBytes m with
    | .ok bytes => (reject (¬ self.Takes bytes) .io, before ++ bytes.take (self.taken bytes))
    | .error e => (.error (.message e), before) := by
  have heq : self.writeReadyMessage m = ofExcept ((readyBytes m).mapError .message) >>= fun bytes =>
      self.writeAll bytes >>= fun _ => self.flush := by
    rw [writeReadyMessage, readyBytes]
    cases m.validate with
    | error e => rfl
    | ok a =>
      cases toVec m with
      | none => rfl
      | some encoded =>
        simp only [okOr, ok_bind]
        show (ofExcept ((checkMessageSize (encoded ++ [0x0A]).length).mapError .message) : WriteM Unit) >>= _ = _
        cases checkMessageSize (encoded ++ [0x0A]).length <;> rfl
  rw [WriteM.call, heq]
  cases readyBytes m with
  | error e => exact run_bind_error run_ofExcept
  | ok bytes => exact (run_bind_ok run_ofExcept).trans (self.run_writeAll_flush bytes before)

/-- A writer that takes all it is given is one in memory. -/
theorem call_writeReadyMessage_inMemory {self : Writer} (h : ∀ bytes, self.Takes bytes) (before : List UInt8) :
    (self.writeReadyMessage m).call before =
      ((((ProviderSdk.writeReadyMessage m).call before).1.mapError .message),
        ((ProviderSdk.writeReadyMessage m).call before).2) := by
  rw [call_writeReadyMessage, ProviderSdk.call_writeReadyMessage]
  cases readyBytes m with
  | error e => rfl
  | ok bytes =>
    dsimp only
    rw [reject, if_neg (not_not.mpr (h bytes)), List.take_of_length_le (h bytes).1]
    rfl

end

end Writer

/-! ## Serving -/

/-- What the provider finds: the address a listener has once it is bound, the
writer it is to announce it on, and whether the server then runs to its
shutdown. -/
structure ServeEnv where
  bind : SocketAddr → Option SocketAddr
  writer : Writer
  serve : Bool

inductive ServeError where
  | launch (e : WriteReadyError)
  | token (e : InvalidLaunchToken)
  | io
  | transport
  deriving DecidableEq

inductive ServeEvent where
  | bound (address : SocketAddr)
  | wrote (bytes : List UInt8)
  | dropped
  | serving (interceptor : LaunchTokenInterceptor)
  deriving DecidableEq

/-- Calls that leave a trace of events behind. -/
abbrev ServeM : Type → Type := ExceptT ServeError (StateM (List ServeEvent))

def ServeM.emit (event : ServeEvent) : ServeM Unit := modify (· ++ [event])

/-- `address.to_string()` -/
def displayAddress (address : SocketAddr) : String :=
  .ofList ((SocketText.display address).map fun b => .ofNat b.toNat)

section

variable [BootstrapCrates]

/-- The announcement of a launch that listens at an address. -/
def readyFor (launch : LaunchRequest) (address : SocketAddr) : ReadyMessage where
  bootstrapVersion := bootstrapVersion
  processInstanceId := launch.processInstanceId
  address := displayAddress address
  launchToken := launch.launchToken

def serveAdapter (env : ServeEnv) (launch : LaunchRequest) : ServeM Unit := do
  let bindAddress ← ofExcept (launch.validate.mapError fun e => .launch (.message e))
  let token ← ofExcept ((LaunchToken.new launch.launchToken).mapError .token)
  let address ← ofExcept (okOr (env.bind bindAddress) .io)
  ServeM.emit (.bound address)
  let (result, written) := (env.writer.writeReadyMessage (readyFor launch address)).call []
  ServeM.emit (.wrote written)
  ofExcept (result.mapError .launch)
  ServeM.emit .dropped
  ServeM.emit (.serving token.interceptor)
  ofExcept (reject (!env.serve) .transport)

/-- The result of a provider's run, and its trace. -/
def runAdapter (env : ServeEnv) (launch : LaunchRequest) : Except ServeError Unit × List ServeEvent :=
  (serveAdapter env launch).run.run []

/-- What a run comes to, by how far it gets. -/
theorem runAdapter_eq (env : ServeEnv) (launch : LaunchRequest) : runAdapter env launch =
    match launch.validate with
    | .error e => (.error (.launch (.message e)), [])
    | .ok bound => match env.bind bound with
      | none => (.error .io, [])
      | some a => match readyBytes (readyFor launch a) with
        | .error e => (.error (.launch (.message e)), [.bound a, .wrote []])
        | .ok bytes => if env.writer.Takes bytes then
            (reject (!env.serve) .transport, [.bound a, .wrote bytes, .dropped, .serving ⟨utf8 launch.launchToken⟩])
          else (.error (.launch .io), [.bound a, .wrote (bytes.take (env.writer.taken bytes))]) := by
  rw [runAdapter, serveAdapter]
  cases hv : launch.validate with
  | error e => rfl
  | ok bound =>
    obtain ⟨t, ht⟩ := (LaunchRequest.validate_ok.mp hv).1.token
    have htoken : t.interceptor = ⟨utf8 launch.launchToken⟩ :=
      congrArg (fun value => (⟨utf8 value⟩ : LaunchTokenInterceptor)) (LaunchToken.new_ok.mp ht)
    rw [ht]
    refine (run_bind_ok run_ofExcept).trans ((run_bind_ok run_ofExcept).trans ?_)
    dsimp only
    cases env.bind bound with
    | none => exact run_bind_error run_ofExcept
    | some a =>
      refine (run_bind_ok run_ofExcept).trans ?_
      rw [Writer.call_writeReadyMessage]
      dsimp only
      cases readyBytes (readyFor launch a) with
      | error e => rfl
      | ok bytes =>
        by_cases htakes : env.writer.Takes bytes
        · dsimp only
          rw [htoken, if_pos htakes, reject, if_neg (not_not.mpr htakes), List.take_of_length_le htakes.1]
          cases env.serve <;> rfl
        · dsimp only
          rw [if_neg htakes, reject, if_pos htakes]
          rfl

/-- A provider that serves has got through everything before. -/
theorem runAdapter_serving {env : ServeEnv} {launch : LaunchRequest} {i : LaunchTokenInterceptor}
    (h : .serving i ∈ (runAdapter env launch).2) : ∃ bound a bytes,
      launch.validate = .ok bound ∧ env.bind bound = some a ∧ readyBytes (readyFor launch a) = .ok bytes ∧
      i = ⟨utf8 launch.launchToken⟩ ∧ (runAdapter env launch).2 = [.bound a, .wrote bytes, .dropped, .serving i] := by
  rw [runAdapter_eq] at h ⊢
  cases hv : launch.validate with
  | error e => simp [hv] at h
  | ok bound =>
    cases hb : env.bind bound with
    | none => simp [hv, hb] at h
    | some a =>
      cases hr : readyBytes (readyFor launch a) with
      | error e => simp [hv, hb, hr] at h
      | ok bytes =>
        by_cases htakes : env.writer.Takes bytes
        · obtain rfl : i = ⟨utf8 launch.launchToken⟩ := by simpa [hv, hb, hr, htakes] using h
          exact ⟨bound, a, bytes, rfl, hb, hr, rfl, by simp [hb, hr, htakes]⟩
        · simp [hv, hb, hr, htakes] at h

/-- A provider that does not serve fails; and it has written something only
where its writer broke off. -/
theorem runAdapter_failed {env : ServeEnv} {launch : LaunchRequest}
    (h : ∀ i, .serving i ∉ (runAdapter env launch).2) : ∃ e, (runAdapter env launch).1 = .error e ∧
      ∀ bytes, .wrote bytes ∈ (runAdapter env launch).2 → bytes ≠ [] → e = .launch .io ∧ ∃ bound a whole,
        launch.validate = .ok bound ∧ env.bind bound = some a ∧ readyBytes (readyFor launch a) = .ok whole ∧
        bytes <+: whole := by
  rw [runAdapter_eq] at h ⊢
  cases hv : launch.validate with
  | error e => exact ⟨_, rfl, fun _ hw => (List.not_mem_nil hw).elim⟩
  | ok bound =>
    cases hb : env.bind bound with
    | none => exact ⟨.io, by simp [hb], fun _ hw => by simp [hb] at hw⟩
    | some a =>
      cases hr : readyBytes (readyFor launch a) with
      | error e => exact ⟨.launch (.message e), by simp [hb, hr], fun _ hw hne => by simp [hb, hr, hne] at hw⟩
      | ok whole =>
        by_cases htakes : env.writer.Takes whole
        · exact absurd (by simp [hv, hb, hr, htakes]) (h ⟨utf8 launch.launchToken⟩)
        · refine ⟨.launch .io, by simp [hb, hr, htakes], fun bytes hw _ => ⟨rfl, bound, a, whole, rfl, hb, hr, ?_⟩⟩
          obtain rfl : bytes = whole.take (env.writer.taken whole) := by simpa [hb, hr, htakes] using hw
          exact List.take_prefix _ _

/-- What is announced for a launch is valid for it. -/
theorem validateFor_readyFor {launch : LaunchRequest} {bound a a' : SocketAddr} (hv : launch.validate = .ok bound)
    (h : (readyFor launch a).validate = .ok a') : (readyFor launch a).validateFor launch = .ok a' :=
  ReadyMessage.validateFor_ok.mpr ⟨⟨bound, hv⟩, h, rfl, rfl⟩

end

/-! ## Room for the announcement -/

section

variable {V : Type} [SerdeJson V]

/-- A string is printed in at least its bytes and two quotes. -/
theorem ScalarJson.length_str (hs : ScalarJson V) (s : String) :
    s.utf8ByteSize + 2 ≤ (jsonText (V := V) (.str s)).length := by
  have hle : ∀ l : List UInt8, l.length ≤ (l.flatMap escapeByte).length := fun l => by
    induction l with
    | nil => simp
    | cons b l ih =>
      obtain ⟨c, w, hb, _⟩ := escapeByte_unquoted b
      rw [List.flatMap_cons, List.length_append, hb, List.length_cons, List.length_cons]
      omega
  have h := hle (utf8 s)
  rw [hs.str, ← length_utf8]
  simp only [List.length_append, List.length_singleton]
  omega

/-- A string without escapes is printed in no more. -/
theorem ScalarJson.length_plain (hs : ScalarJson V) {s : String} (h : ∀ b ∈ utf8 s, b ∉ escapedBytes) :
    (jsonText (V := V) (.str s)).length = s.utf8ByteSize + 2 := by
  have hplain : (utf8 s).flatMap escapeByte = utf8 s := by
    have hmap := List.flatMap_congr fun b hb => escapeByte_plain (h b hb)
    rw [hmap, List.flatMap_singleton']
  rw [hs.str, hplain, ← length_utf8]
  simp only [List.length_append, List.length_singleton]
  omega

end

/-- The characters of a loopback address. -/
def addressBytes : List UInt8 := utf8 "%.0123456789:[]"

theorem addressBytes_plain : ∀ b ∈ addressBytes, b ∉ escapedBytes ∧ b.toNat < 0x80 := by decide +kernel

theorem decimal_addressBytes {n : Nat} : ∀ b ∈ SocketText.decimal n, b ∈ addressBytes := by
  intro b hb
  obtain ⟨c, hc, rfl⟩ := List.mem_map.mp hb
  have hdigit := Nat.isDigit_of_mem_toDigits (by decide) (by decide) hc
  have hall : ∀ d < 10, UInt8.ofNat (0x30 + d) ∈ addressBytes := by decide +kernel
  have hrange : 0x30 ≤ c.toNat ∧ c.toNat ≤ 0x39 := by
    simpa [Char.isDigit, UInt32.le_iff_toNat_le] using hdigit
  have h := hall (c.toNat - 0x30) (by omega)
  rwa [show 0x30 + (c.toNat - 0x30) = c.toNat by omega] at h

theorem display_addressBytes {a : SocketAddr} (hl : a.ip.isLoopback = true) :
    ∀ b ∈ SocketText.display a, b ∈ addressBytes := by
  have hdot : (0x2E : UInt8) ∈ addressBytes := by decide +kernel
  have hcolon : (0x3A : UInt8) ∈ addressBytes := by decide +kernel
  intro b hb
  cases a with
  | v4 ip port =>
    simp only [SocketText.display, SocketText.displayIpv4, List.mem_append, List.mem_cons] at hb
    rcases hb with (((h | rfl | h) | rfl | h) | rfl | h) | rfl | h <;>
      first | assumption | exact decimal_addressBytes b h
  | v6 ip port flowinfo scopeId =>
    obtain rfl : ip = SocketText.loopbackIpv6 := eq_of_beq hl
    have hip : ∀ b ∈ SocketText.displayIpv6 SocketText.loopbackIpv6, b ∈ addressBytes := by decide +kernel
    have hscope : ∀ b ∈ SocketText.displayScope scopeId, b ∈ addressBytes := by
      intro b hb
      rw [SocketText.displayScope] at hb
      split at hb
      · cases hb
      · rcases List.mem_cons.mp hb with rfl | hb
        · decide +kernel
        · exact decimal_addressBytes b hb
    simp only [SocketText.display, List.mem_append, List.mem_cons] at hb
    rcases hb with ((rfl | h) | h) | rfl | rfl | h
    · decide +kernel
    · exact hip b h
    · exact hscope b h
    · decide +kernel
    · exact hcolon
    · exact decimal_addressBytes b h

theorem utf8_displayAddress {a : SocketAddr} (hl : a.ip.isLoopback = true) :
    utf8 (displayAddress a) = SocketText.display a := by
  have hchar : ∀ n < 0x80, (Char.ofNat n).toNat = n := by decide +kernel
  have hbyte : ∀ b ∈ SocketText.display a, String.utf8EncodeChar (.ofNat b.toNat) = [b] := by
    intro b hb
    have hlt := (addressBytes_plain b (display_addressBytes hl b hb)).2
    rw [utf8EncodeChar_ascii (by rw [hchar _ hlt]; exact hlt), hchar _ hlt, UInt8.ofNat_toNat]
  rw [displayAddress, utf8_ofList, List.flatMap_map, List.flatMap_congr hbyte, List.flatMap_singleton']

section

variable {V : Type} [SerdeJson V] [BootstrapCrates] {launch : LaunchRequest} {bound a : SocketAddr}

/-- How the crates of the handshake print and read: messages in the compact
format, and addresses as the standard library does. -/
structure StdCrates (V : Type) [SerdeJson V] [BootstrapCrates] : Prop where
  compact : CompactJson V
  scalars : ScalarJson V
  toVec : ∀ m : ReadyMessage, BootstrapCrates.toVec m = some (jsonText (V := V) m.serialize)
  parseSocketAddr : ∀ s : String, BootstrapCrates.parseSocketAddr s = SocketText.parse (utf8 s)

/-- An announcement is printed on one line. -/
theorem StdCrates.lf_notMem_readyFor (h : StdCrates V) (launch : LaunchRequest) (a : SocketAddr) :
    0x0A ∉ jsonText (V := V) (readyFor launch a).serialize := by
  refine h.compact.lf_notMem_struct h.scalars fun f hf => ?_
  simp only [List.mem_cons, List.not_mem_nil, or_false] at hf
  rcases hf with rfl | rfl | rfl | rfl
  · show 0x0A ∉ jsonText (V := V) (.int bootstrapVersion.toNat)
    rw [h.scalars.int]
    decide
  · exact h.scalars.lf_notMem_str _
  · exact h.scalars.lf_notMem_str _
  · exact h.scalars.lf_notMem_str _

/-- The announcement takes no more than the request, as its field is four
letters shorter and its port at most four digits longer. -/
theorem StdCrates.length_readyFor (h : StdCrates V) (hv : launch.validate = .ok bound)
    (hl : SocketText.Listens bound a) :
    (jsonText (V := V) (readyFor launch a).serialize).length ≤ (jsonText (V := V) launch.serialize).length := by
  obtain ⟨hid, hparse, hloop⟩ := LaunchRequest.validate_ok.mp hv
  have hloop' : a.ip.isLoopback = true := hl.ip ▸ hloop
  rw [h.parseSocketAddr] at hparse
  have hlen := hl.length_display hloop hparse
  have haddress : (jsonText (V := V) (.str (displayAddress a))).length = (displayAddress a).utf8ByteSize + 2 := by
    refine h.scalars.length_plain fun b hb => ?_
    rw [utf8_displayAddress hloop'] at hb
    exact (addressBytes_plain b (display_addressBytes hloop' b hb)).1
  have hbind := h.scalars.length_str launch.bindAddress
  rw [← length_utf8, utf8_displayAddress hloop'] at haddress
  rw [← length_utf8] at hbind
  have hname : (jsonText (V := V) (.str "address")).length = 9 := by
    rw [h.scalars.str]
    decide
  have hname' : (jsonText (V := V) (.str "bindAddress")).length = 13 := by
    rw [h.scalars.str]
    decide
  rw [ReadyMessage.serialize, LaunchRequest.serialize, h.compact.struct, h.compact.struct]
  simp only [List.map_cons, List.map_nil, List.intercalate_cons_cons, List.intercalate_singleton, List.length_append,
    List.length_cons, List.length_nil, readyFor, hid.version, haddress, hname, hname']
  omega

/-- The announcement says where the listener is. -/
theorem StdCrates.validate_readyFor (h : StdCrates V) (hv : launch.validate = .ok bound)
    (hl : SocketText.Listens bound a) : (readyFor launch a).validate = .ok a := by
  obtain ⟨hid, _, hloop⟩ := LaunchRequest.validate_ok.mp hv
  refine ReadyMessage.validate_ok.mpr ⟨⟨rfl, hid.process, hid.token⟩, ⟨?_, hl.ip ▸ hloop⟩, hl.port_ne⟩
  rw [h.parseSocketAddr]
  show SocketText.parse (utf8 (displayAddress a)) = some a
  rw [utf8_displayAddress (hl.ip ▸ hloop)]
  exact hl.parse_display hloop

end

/-- **What is served was announced.** A provider serves once it has written,
on one line of at most 16 KiB, an announcement that is valid for its launch,
and closed the writer; the calls it lets through are those whose first token
is the launch's. Where it does not get to serve, it fails and has written
nothing, unless it is the writer that failed, which then holds a front part
of the announcement. -/
theorem serveAdapter_announces {V : Type} [SerdeJson V] [BootstrapCrates] (h : StdCrates V) {M : Type}
    [MetadataMap M] (env : ServeEnv) (launch : LaunchRequest) :
    (∀ i, .serving i ∈ (runAdapter env launch).2 → ∃ bound a a' encoded,
      launch.validate = .ok bound ∧ env.bind bound = some a ∧ (readyFor launch a).validateFor launch = .ok a' ∧
      toVec (readyFor launch a) = some encoded ∧ 0x0A ∉ encoded ∧ encoded.length < 16 * 1024 ∧
      (runAdapter env launch).2 = [.bound a, .wrote (encoded ++ [0x0A]), .dropped, .serving i] ∧
      ∀ metadata : M, (∃ passed, i.call metadata = .ok passed) ↔
        MetadataMap.get metadata launchTokenHeader = some (utf8 launch.launchToken)) ∧
    ((∀ i, .serving i ∉ (runAdapter env launch).2) → ∃ e, (runAdapter env launch).1 = .error e ∧
      ∀ bytes, .wrote bytes ∈ (runAdapter env launch).2 → bytes ≠ [] → e = .launch .io ∧ ∃ bound a encoded,
        launch.validate = .ok bound ∧ env.bind bound = some a ∧ toVec (readyFor launch a) = some encoded ∧
        bytes <+: encoded ++ [0x0A]) := by
  refine ⟨fun i hi => ?_, fun hnone => ?_⟩
  · obtain ⟨bound, a, bytes, hv, hb, hr, rfl, htrace⟩ := runAdapter_serving hi
    obtain ⟨⟨a', hready⟩, ⟨encoded, henc, rfl⟩, hlen⟩ := readyBytes_ok.mp hr
    rw [List.length_append, List.length_singleton] at hlen
    have hline : 0x0A ∉ encoded := by
      rw [h.toVec, Option.some.injEq] at henc
      exact henc ▸ h.lf_notMem_readyFor launch a
    refine ⟨bound, a, a', encoded, hv, hb, validateFor_readyFor hv hready, henc, hline, hlen, htrace,
      fun metadata => ?_⟩
    simp only [LaunchTokenInterceptor.call_ok, exists_and_left, exists_eq', and_true]
  · obtain ⟨e, he, hwrote⟩ := runAdapter_failed hnone
    refine ⟨e, he, fun bytes hw hne => ?_⟩
    obtain ⟨rfl, bound, a, whole, hv, hb, hr, hfront⟩ := hwrote bytes hw hne
    obtain ⟨_, ⟨encoded, henc, rfl⟩, _⟩ := readyBytes_ok.mp hr
    exact ⟨rfl, bound, a, encoded, hv, hb, henc, hfront⟩

/-- **The handshake of a launch.** A valid request printed on a line of at
most 16 KiB is read by the provider, and nothing after it. If the address can
be bound and the writer takes a message, the provider announces where it
listens and serves; the host reads
the listener's address from the announcement, which no launch of another
process or token accepts; the calls the host applies its token to pass
unchanged, and those with another token are refused. -/
theorem handshake {V : Type} [SerdeJson V] [LaunchCrates] (h : StdCrates V) {M : Type} [MetadataMap M]
    (hmetadata : MetadataMap.Lawful M) {launch : LaunchRequest} {bound a : SocketAddr}
    (hv : launch.validate = .ok bound) {line : String}
    (hline : utf8 line = jsonText (V := V) launch.serialize ++ [0x0A]) (hfits : line.utf8ByteSize ≤ 16 * 1024)
    (hread : fromStr line = some launch) {env : ServeEnv} (hbind : env.bind bound = some a)
    (hl : SocketText.Listens bound a) (hwriter : ∀ bytes, bytes.length ≤ 16 * 1024 → env.writer.Takes bytes)
    (hready : fromSlice (jsonText (V := V) (readyFor launch a).serialize ++ [0x0A]) = some (readyFor launch a)) :
    (∀ rest, readLaunchRequest (utf8 line ++ rest) = (.ok launch, rest)) ∧
    ∃ announced i, (runAdapter env launch).2 = [.bound a, .wrote announced, .dropped, .serving i] ∧
      parseReadyMessage announced launch = .ok (readyFor launch a, a) ∧
      (∀ other : LaunchRequest, other.processInstanceId ≠ launch.processInstanceId ∨
        other.launchToken ≠ launch.launchToken → ∀ r, parseReadyMessage announced other ≠ .ok r) ∧
      ∀ token : LaunchToken, ∀ metadata : M, i.call (token.apply metadata) =
        if token.value = launch.launchToken then .ok (token.apply metadata)
        else .error (.unauthenticated "invalid launch token") := by
  have hfits' : (jsonText (V := V) launch.serialize ++ [0x0A]).length ≤ maximumBootstrapMessageBytes := by
    rw [← hline, length_utf8]
    exact hfits
  have hroom : (jsonText (V := V) (readyFor launch a).serialize ++ [0x0A]).length ≤ maximumBootstrapMessageBytes := by
    have hle := h.length_readyFor hv hl
    rw [List.length_append] at hfits' ⊢
    omega
  have hvalid := h.validate_readyFor hv hl
  have hbytes : readyBytes (readyFor launch a) = .ok (jsonText (V := V) (readyFor launch a).serialize ++ [0x0A]) :=
    readyBytes_ok.mpr ⟨⟨a, hvalid⟩, ⟨_, h.toVec _, rfl⟩, hroom⟩
  refine ⟨fun rest => (readLaunchRequest_line h.compact h.scalars hv hline hread).mpr hfits,
    jsonText (V := V) (readyFor launch a).serialize ++ [0x0A], ⟨utf8 launch.launchToken⟩, ?_, ?_,
    fun other hother r hr => ?_, fun token metadata => ?_⟩
  · rw [runAdapter_eq, hv]
    dsimp only
    rw [hbind]
    dsimp only
    rw [hbytes]
    dsimp only
    rw [if_pos (hwriter _ hroom)]
  · exact (parseReadyMessage_ok hroom hready).mpr ⟨a, validateFor_readyFor hv hvalid, rfl⟩
  · obtain ⟨_, hr, _⟩ := (parseReadyMessage_ok hroom hready).mp hr
    obtain ⟨_, _, hp, ht⟩ := ReadyMessage.validateFor_ok.mp hr
    rcases hother with hother | hother
    · exact hother hp.symm
    · exact hother ht.symm
  · have hget : MetadataMap.get (token.apply metadata) launchTokenHeader = some (utf8 token.value) :=
      hmetadata.get_insert _ _
    rw [LaunchTokenInterceptor.call, hget]
    by_cases he : token.value = launch.launchToken
    · simp [he]
    · have hne : utf8 token.value ≠ utf8 launch.launchToken := fun heq => he (utf8_injective heq)
      simp [he, hne]

/-- A launch request as `LaunchRequest.serialize` has it printed, without
escapes. -/
def PlainCrates.parseLaunch (bytes : List UInt8) : Option LaunchRequest := do
  let bytes ← expect "\x7b\"bootstrapVersion\":" bytes
  let number := bytes.takeWhile (· ≠ 0x2C)
  let version ← digits (2 ^ 32) number
  let bytes ← expect ",\"processInstanceId\":\"" (bytes.drop number.length)
  let (processInstanceId, bytes) ← plain bytes
  let bytes ← expect "\",\"bindAddress\":\"" bytes
  let (bindAddress, bytes) ← plain bytes
  let bytes ← expect "\",\"launchToken\":\"" bytes
  let (launchToken, bytes) ← plain bytes
  let bytes ← expect "\"\x7d" bytes
  if bytes.all fun b => b ∈ [0x20, 0x09, 0x0A, 0x0D] then
    some ⟨UInt32.ofNat version, processInstanceId, bindAddress, launchToken⟩
  else none

/-- The crates on texts without escapes, with all socket addresses. -/
@[reducible] def PlainCrates.launchCrates : LaunchCrates where
  toVec m := some (jsonText (V := SampleJson) m.serialize)
  fromSlice := PlainCrates.parseReady
  parseSocketAddr s := SocketText.parse (utf8 s)
  isAsciiMetadata value := (utf8 value).all fun b => b = 0x09 ∨ 0x20 ≤ b ∧ b ≠ 0x7F
  fromStr s := PlainCrates.parseLaunch (utf8 s)

theorem PlainCrates.launchCrates_std : @StdCrates SampleJson _ PlainCrates.launchCrates.toBootstrapCrates :=
  letI := PlainCrates.launchCrates
  ⟨SampleJson.compact, SampleJson.scalars, fun _ => rfl, fun _ => rfl⟩

def ipv6Launch : LaunchRequest := ⟨1, "process-1", "[::1]:0", "secret-token"⟩

def ipv6Listener : SocketAddr := .v6 SocketText.loopbackIpv6 50051 0 0

def ipv6Line : String :=
  "\x7b\"bootstrapVersion\":1,\"processInstanceId\":\"process-1\",\"bindAddress\":\"[::1]:0\"," ++
    "\"launchToken\":\"secret-token\"\x7d\n"

/-- The entries of a call's metadata in order. -/
abbrev Entries : Type := List (String × List UInt8)

instance : MetadataMap Entries where
  get metadata key := (metadata.find? fun entry => entry.1 = key).map (·.2)
  insert metadata key value := metadata.filter (fun entry => entry.1 ≠ key) ++ [(key, value)]

theorem Entries.lawful : MetadataMap.Lawful Entries where
  get_insert metadata value := by
    have hnone : (metadata.filter fun entry => decide (entry.1 ≠ launchTokenHeader)).find?
        (fun entry => decide (entry.1 = launchTokenHeader)) = none := by
      rw [List.find?_eq_none]
      intro entry hm
      simpa using (List.mem_filter.mp hm).2
    show Option.map _ (List.find? _ (List.filter _ metadata ++ _)) = _
    rw [List.find?_append, hnone]
    simp

/-- A writer that takes no more than a number of bytes. -/
def shortWriter (limit : Nat) : Writer := ⟨fun bytes => min limit bytes.length, true⟩

def ipv6Env (limit : Nat) : ServeEnv := ⟨fun _ => some ipv6Listener, shortWriter limit, true⟩

/-- A launch on `::1` is announced and served; a writer that breaks off after
nine bytes is left with those, and nothing is served. -/
theorem ipv6Launch_served :
    letI := PlainCrates.launchCrates
    (∃ encoded i, (runAdapter (ipv6Env 16384) ipv6Launch).2 =
        [.bound ipv6Listener, .wrote (encoded ++ [0x0A]), .dropped, .serving i] ∧ 0x0A ∉ encoded ∧
      ∃ passed, i.call ([(launchTokenHeader, utf8 "secret-token")] : Entries) = .ok passed) ∧
    (runAdapter (ipv6Env 9) ipv6Launch).1 = .error (.launch .io) := by
  let crates := PlainCrates.launchCrates
  have hserving : .serving ⟨utf8 "secret-token"⟩ ∈ (runAdapter (ipv6Env 16384) ipv6Launch).2 := by decide +kernel
  have hbroken : ∀ i, .serving i ∉ (runAdapter (ipv6Env 9) ipv6Launch).2 := by
    have htrace : (runAdapter (ipv6Env 9) ipv6Launch).2 = [.bound ipv6Listener, .wrote (utf8 "\x7b\"bootstr")] := by
      decide +kernel
    rw [htrace]
    simp
  refine ⟨?_, ?_⟩
  · obtain ⟨h, _⟩ := serveAdapter_announces PlainCrates.launchCrates_std (M := Entries) (ipv6Env 16384) ipv6Launch
    obtain ⟨_, a, _, encoded, _, hbind, _, _, hline, _, htrace, hcalls⟩ := h _ hserving
    obtain rfl : ipv6Listener = a := Option.some.inj hbind
    exact ⟨encoded, _, htrace, hline, (hcalls _).mpr (by decide)⟩
  · obtain ⟨_, h⟩ := serveAdapter_announces PlainCrates.launchCrates_std (M := Entries) (ipv6Env 9) ipv6Launch
    obtain ⟨e, he, hwrote⟩ := h hbroken
    obtain ⟨rfl, _⟩ := hwrote (utf8 "\x7b\"bootstr") (by decide +kernel) (by decide +kernel)
    exact he

/-- A launch on `::1` that leaves the port to the listener. -/
theorem ipv6Launch_announced :
    letI := PlainCrates.launchCrates
    ∃ announced i, (runAdapter (ipv6Env 16384) ipv6Launch).2 =
        [.bound ipv6Listener, .wrote announced, .dropped, .serving i] ∧
      parseReadyMessage announced ipv6Launch = .ok (readyFor ipv6Launch ipv6Listener, ipv6Listener) ∧
      ∃ token : LaunchToken, i.call (token.apply ([] : Entries)) = .ok (token.apply []) := by
  let crates := PlainCrates.launchCrates
  have hv : ipv6Launch.validate = .ok (.v6 SocketText.loopbackIpv6 0 0 0) := by decide +kernel
  have hline : utf8 ipv6Line = jsonText (V := SampleJson) ipv6Launch.serialize ++ [0x0A] := by decide +kernel
  have hread : fromStr ipv6Line = some ipv6Launch := by decide +kernel
  have hready : fromSlice (jsonText (V := SampleJson) (readyFor ipv6Launch ipv6Listener).serialize ++ [0x0A]) =
      some (readyFor ipv6Launch ipv6Listener) := by decide +kernel
  have hbind : (ipv6Env 16384).bind (.v6 SocketText.loopbackIpv6 0 0 0) = some ipv6Listener := rfl
  have hl : SocketText.Listens (.v6 SocketText.loopbackIpv6 0 0 0) ipv6Listener :=
    .v6 (by decide) (fun h => absurd rfl h) (.inl rfl)
  have hwriter : ∀ bytes, bytes.length ≤ 16 * 1024 → (ipv6Env 16384).writer.Takes bytes :=
    fun bytes hle => ⟨Nat.le_min.mpr ⟨hle, Nat.le_refl _⟩, rfl⟩
  obtain ⟨_, announced, i, htrace, hparse, _, hcalls⟩ :=
    handshake PlainCrates.launchCrates_std Entries.lawful hv hline (by decide +kernel) hread hbind hl hwriter hready
  let token : LaunchToken := ⟨"secret-token", by decide, by decide +kernel⟩
  exact ⟨announced, i, htrace, hparse, token, (hcalls token []).trans (if_pos rfl)⟩

end ProviderSdk
