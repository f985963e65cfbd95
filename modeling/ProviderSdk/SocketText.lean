/-
The text of socket addresses, as the standard library reads and prints it.

A listener prints the address it has, and the host reads it: for loopback
addresses nothing is lost between the two (`parse_display`). What is printed
takes no more than four bytes over a text the bind address was read from,
as only the port can be longer (`Listens.length_display`).
-/
import ProviderSdk.Bootstrap
import ProviderSdk.Lib.Numerals

namespace ProviderSdk

open Text Numerals

namespace SocketText

/-! ## Reading -/

/-- `read_ipv4_addr`. -/
def readIpv4Addr : Reader (Vector UInt8 4) := do
  let a ← readSeparator 0x2E 0 (readNumber 10 (2 ^ 8) (some 3) false)
  let b ← readSeparator 0x2E 1 (readNumber 10 (2 ^ 8) (some 3) false)
  let c ← readSeparator 0x2E 2 (readNumber 10 (2 ^ 8) (some 3) false)
  let d ← readSeparator 0x2E 3 (readNumber 10 (2 ^ 8) (some 3) false)
  pure #v[.ofNat a, .ofNat b, .ofNat c, .ofNat d]

/-- `u16::from_be_bytes`. -/
def fromBeBytes (high low : UInt8) : UInt16 := UInt16.ofNat (high.toNat * 256 + low.toNat)

/-- `read_groups`, with `remaining` groups to go: those read, and whether
they end with an embedded IPv4 address, which takes two. -/
def readGroups : (remaining : Nat) → List UInt16 → List UInt8 → (List UInt16 × Bool) × List UInt8
  | 0, groups, text => ((groups, false), text)
  | remaining + 1, groups, text =>
    let ipv4 := if remaining > 0 then readSeparator 0x3A groups.length readIpv4Addr text else none
    match ipv4 with
    | some (octets, text) =>
      ((groups ++ [fromBeBytes (octets.get 0) (octets.get 1), fromBeBytes (octets.get 2) (octets.get 3)], true), text)
    | none =>
      match readSeparator 0x3A groups.length (readNumber 16 (2 ^ 16) (some 4) true) text with
      | some (group, text) => readGroups remaining (groups ++ [.ofNat group]) text
      | none => ((groups, false), text)

/-- The eight segments of a list. -/
def segments (groups : List UInt16) : Vector UInt16 8 := .ofFn fun i => groups.getD i 0

/-- `read_ipv6_addr`: eight groups, or groups on both sides of `::`. -/
def readIpv6Addr : Reader (Vector UInt16 8) := fun text =>
  let ((head, headIpv4), text) := readGroups 8 [] text
  if head.length = 8 then some (segments head, text)
  else if headIpv4 then none
  else do
    let (_, text) ← readGivenChar 0x3A text
    let (_, text) ← readGivenChar 0x3A text
    let ((tail, _), text) := readGroups (8 - (head.length + 1)) [] text
    some (segments (head ++ List.replicate (8 - tail.length - head.length) 0 ++ tail), text)

/-- `read_port`. -/
def readPort : Reader Nat := do
  readGivenChar 0x3A
  readNumber 10 (2 ^ 16) none true

/-- `read_scope_id`. -/
def readScopeId : Reader Nat := do
  readGivenChar 0x25
  readNumber 10 (2 ^ 32) none true

def readSocketAddrV4 : Reader SocketAddr := do
  let ip ← readIpv4Addr
  let port ← readPort
  pure (.v4 ip (.ofNat port))

/-- `read_scope_id().unwrap_or(0)`. -/
def readScopeIdOr : Reader Nat := fun text => some ((readScopeId text).getD (0, text))

def readSocketAddrV6 : Reader SocketAddr := do
  readGivenChar 0x5B
  let ip ← readIpv6Addr
  let scopeId ← readScopeIdOr
  readGivenChar 0x5D
  let port ← readPort
  pure (.v6 ip (.ofNat port) 0 (.ofNat scopeId))

/-- `SocketAddr::from_str`: the whole text is an address. -/
def parse (text : List UInt8) : Option SocketAddr :=
  match (readSocketAddrV4 text).orElse fun _ => readSocketAddrV6 text with
  | some (address, []) => some address
  | _ => none

/-! ## Printing -/

def decimal (n : Nat) : List UInt8 := numeral 10 n

def displayIpv4 (octets : Vector UInt8 4) : List UInt8 :=
  decimal (octets.get 0).toNat ++ 0x2E :: decimal (octets.get 1).toNat ++ 0x2E :: decimal (octets.get 2).toNat ++
    0x2E :: decimal (octets.get 3).toNat

/-- A run of zero segments. -/
structure Span where
  start : Nat
  len : Nat

/-- The body of the loop that looks for the longest run of zeros. -/
def scanZeroes : Span × Span → UInt16 × Nat → Span × Span
  | (longest, current), (segment, i) =>
    if segment = 0 then
      let current := if current.len = 0 then { current with start := i } else current
      let current := { current with len := current.len + 1 }
      (if current.len > longest.len then current else longest, current)
    else (longest, ⟨0, 0⟩)

def longestZeroes (groups : List UInt16) : Span := (groups.zipIdx.foldl scanZeroes (⟨0, 0⟩, ⟨0, 0⟩)).1

/-- `fmt_subslice`. -/
def displayGroups (groups : List UInt16) : List UInt8 := [0x3A].intercalate (groups.map fun g => numeral 16 g.toNat)

def displayIpv6 (ip : Vector UInt16 8) : List UInt8 :=
  if ip.toList.take 6 = [0, 0, 0, 0, 0, 0xFFFF] then
    utf8 "::ffff:" ++ displayIpv4 #v[(ip.get 6 >>> 8).toUInt8, (ip.get 6).toUInt8,
      (ip.get 7 >>> 8).toUInt8, (ip.get 7).toUInt8]
  else
    let zeroes := longestZeroes ip.toList
    if zeroes.len > 1 then
      displayGroups (ip.toList.take zeroes.start) ++ [0x3A, 0x3A] ++
        displayGroups (ip.toList.drop (zeroes.start + zeroes.len))
    else displayGroups ip.toList

/-- The scope of an IPv6 address, which is printed unless it is zero. -/
def displayScope (scopeId : UInt32) : List UInt8 := if scopeId = 0 then [] else 0x25 :: decimal scopeId.toNat

/-- `impl Display for SocketAddr`. -/
def display : SocketAddr → List UInt8
  | .v4 ip port => displayIpv4 ip ++ 0x3A :: decimal port.toNat
  | .v6 ip port _ scopeId =>
    0x5B :: displayIpv6 ip ++ displayScope scopeId ++ 0x5D :: 0x3A :: decimal port.toNat

example : parse (utf8 "[fe80::1%7]:80") = some (.v6 #v[0xFE80, 0, 0, 0, 0, 0, 0, 1] 80 0 7) := by decide +kernel
example : display (.v6 #v[0x2001, 0xDB8, 0, 0, 1, 0, 0, 0] 443 0 0) = utf8 "[2001:db8:0:0:1::]:443" := by decide +kernel

/-! ## What is printed is read -/

variable {text rest : List UInt8}

theorem readSeparator_zero {α : Type} {sep : UInt8} {inner : Reader α} :
    readSeparator sep 0 inner text = inner text := rfl

theorem readSeparator_some {α : Type} {sep : UInt8} {i : Nat} {inner : Reader α} {r : α × List UInt8} :
    readSeparator sep (i + 1) inner text = some r ↔ ∃ after, text = sep :: after ∧ inner after = some r := by
  simp only [readSeparator, gt_iff_lt, Nat.zero_lt_succ, if_true, bind_some, readGivenChar_some]
  refine ⟨fun h => ?_, fun h => ?_⟩
  · obtain ⟨_, after, ht, hi⟩ := h
    exact ⟨after, ht, hi⟩
  · obtain ⟨after, ht, hi⟩ := h
    exact ⟨(), after, ht, hi⟩

/-- No digit stands first in a text. -/
def NoDigit (text : List UInt8) : Prop := ∀ b ∈ text.head?, toDigit 10 b = none

theorem readNumber_octet {allowZeroPrefix : Bool} (b : UInt8) (h : NoDigit rest) :
    readNumber 10 (2 ^ 8) (some 3) allowZeroPrefix (decimal b.toNat ++ rest) = some (b.toNat, rest) := by
  have hlt := b.toNat_lt
  refine readNumber_numeral (by decide) (by decide) hlt (fun max hm => ?_) h
  cases hm
  exact (length_numeral_le (by decide) (by decide)).mpr (by omega)

theorem readIpv4Addr_some {r : Vector UInt8 4 × List UInt8} : readIpv4Addr text = some r ↔
    ∃ a b c d : Nat, ∃ t₁ t₂ t₃ : List UInt8, readNumber 10 (2 ^ 8) (some 3) false text = some (a, 0x2E :: t₁) ∧
      readNumber 10 (2 ^ 8) (some 3) false t₁ = some (b, 0x2E :: t₂) ∧
      readNumber 10 (2 ^ 8) (some 3) false t₂ = some (c, 0x2E :: t₃) ∧
      readNumber 10 (2 ^ 8) (some 3) false t₃ = some (d, r.2) ∧ r.1 = #v[.ofNat a, .ofNat b, .ofNat c, .ofNat d] := by
  simp only [readIpv4Addr, bind_some, pure_some, readSeparator_zero, readSeparator_some]
  refine ⟨fun h => ?_, fun h => ?_⟩
  · obtain ⟨a, _, ha, b, _, ⟨t₁, rfl, hb⟩, c, _, ⟨t₂, rfl, hc⟩, d, _, ⟨t₃, rfl, hd⟩, rfl⟩ := h
    exact ⟨a, b, c, d, t₁, t₂, t₃, ha, hb, hc, hd, rfl⟩
  · obtain ⟨a, b, c, d, t₁, t₂, t₃, ha, hb, hc, hd, he⟩ := h
    exact ⟨a, _, ha, b, _, ⟨t₁, rfl, hb⟩, c, _, ⟨t₂, rfl, hc⟩, d, _, ⟨t₃, rfl, hd⟩, Prod.ext he rfl⟩

theorem readIpv4Addr_display (ip : Vector UInt8 4) (h : NoDigit rest) :
    readIpv4Addr (displayIpv4 ip ++ rest) = some (ip, rest) := by
  have hdot : ∀ t, NoDigit (0x2E :: t) := fun t b hb => by
    cases hb
    rfl
  simp only [displayIpv4, List.append_assoc, List.cons_append]
  rw [readIpv4Addr_some]
  refine ⟨_, _, _, _, _, _, _, readNumber_octet _ (hdot _), readNumber_octet _ (hdot _), readNumber_octet _ (hdot _),
    readNumber_octet _ h, ?_⟩
  simp only [UInt8.ofNat_toNat]
  refine Vector.ext fun i hi => ?_
  match i with
  | 0 | 1 | 2 | 3 => rfl

/-- A number without a limit on its digits. -/
theorem readNumber_decimal {limit n : Nat} (hn : n < limit) (h : NoDigit rest) :
    readNumber 10 limit none true (decimal n ++ rest) = some (n, rest) :=
  readNumber_numeral (by decide) (by decide) hn (fun max hm => by cases hm) h

theorem readPort_display (port : UInt16) : readPort (0x3A :: decimal port.toNat) = some (port.toNat, []) := by
  have hread : readNumber 10 (2 ^ 16) none true (decimal port.toNat ++ []) = some (port.toNat, []) :=
    readNumber_decimal port.toNat_lt fun b hb => by cases hb
  rw [List.append_nil] at hread
  simp only [readPort, bind_some, readGivenChar_some]
  exact ⟨(), _, rfl, hread⟩

/-- `::1` -/
def loopbackIpv6 : Vector UInt16 8 := segments [0, 0, 0, 0, 0, 0, 0, 1]

theorem readIpv6Addr_display (scopeId : UInt32) : readIpv6Addr (displayIpv6 loopbackIpv6 ++
    (displayScope scopeId ++ 0x5D :: rest)) = some (loopbackIpv6, displayScope scopeId ++ 0x5D :: rest) := by
  have hdisplay : displayIpv6 loopbackIpv6 = [0x3A, 0x3A, 0x31] := by decide
  rw [hdisplay, displayScope]
  by_cases h : scopeId = 0
  · rw [if_pos h]
    rfl
  · rw [if_neg h]
    rfl

theorem readScopeIdOr_display (scopeId : UInt32) :
    readScopeIdOr (displayScope scopeId ++ 0x5D :: rest) = some (scopeId.toNat, 0x5D :: rest) := by
  by_cases h : scopeId = 0
  · subst h
    rfl
  · have hread : readScopeId (0x25 :: decimal scopeId.toNat ++ 0x5D :: rest) = some (scopeId.toNat, 0x5D :: rest) := by
      simp only [readScopeId, bind_some, readGivenChar_some]
      refine ⟨(), _, rfl, readNumber_decimal scopeId.toNat_lt fun b hb => ?_⟩
      cases hb
      rfl
    rw [displayScope, if_neg h, readScopeIdOr, hread]
    rfl

/-- **An address a listener on loopback has is read as it was printed.** -/
theorem parse_display {a : SocketAddr} (hl : a.ip.isLoopback = true)
    (hflow : ∀ ip port flowinfo scopeId, a = .v6 ip port flowinfo scopeId → flowinfo = 0) :
    parse (display a) = some a := by
  cases a with
  | v4 ip port =>
    have hcolon : NoDigit (0x3A :: decimal port.toNat) := fun b hb => by
      cases hb
      rfl
    have hread : readSocketAddrV4 (displayIpv4 ip ++ 0x3A :: decimal port.toNat) = some (.v4 ip port, []) := by
      simp only [readSocketAddrV4, bind_some, pure_some]
      exact ⟨_, _, readIpv4Addr_display ip hcolon, _, _, readPort_display port, by rw [UInt16.ofNat_toNat]⟩
    rw [display, parse, hread]
    rfl
  | v6 ip port flowinfo scopeId =>
    obtain rfl := hflow _ _ _ _ rfl
    have hip : ip = loopbackIpv6 := eq_of_beq hl
    subst hip
    have hread : readSocketAddrV6 (display (.v6 loopbackIpv6 port 0 scopeId)) =
        some (.v6 loopbackIpv6 port 0 scopeId, []) := by
      simp only [display, List.append_assoc, List.cons_append, readSocketAddrV6, bind_some, readGivenChar_some,
        pure_some]
      refine ⟨(), _, rfl, loopbackIpv6, _, readIpv6Addr_display scopeId, scopeId.toNat, _,
        readScopeIdOr_display scopeId, (), _, rfl, _, _, readPort_display port, ?_⟩
      rw [UInt16.ofNat_toNat, UInt32.ofNat_toNat]
    -- the bracket is no digit, so the text is no IPv4 address
    have hv4 : readSocketAddrV4 (display (.v6 loopbackIpv6 port 0 scopeId)) = none := rfl
    rw [parse, hv4, Option.orElse_none, hread]

/-! ## How much is printed -/

/-- An IPv4 address is printed in no more bytes than it is read from. -/
theorem readIpv4Addr_takes {ip : Vector UInt8 4} (h : readIpv4Addr text = some (ip, rest)) :
    ∃ used, text = used ++ rest ∧ (displayIpv4 ip).length ≤ used.length := by
  have htakes : ∀ {n : Nat} {text rest : List UInt8}, readNumber 10 (2 ^ 8) (some 3) false text = some (n, rest) →
      ∃ used, text = used ++ rest ∧ (decimal (UInt8.ofNat n).toNat).length ≤ used.length := by
    intro n text rest h
    obtain ⟨hlt, used, ht, hle⟩ := readNumber_takes (by decide) h
    rw [UInt8.toNat_ofNat_of_lt' hlt]
    exact ⟨used, ht, hle⟩
  obtain ⟨a, b, c, d, t₁, t₂, t₃, ha, hb, hc, hd, rfl⟩ := readIpv4Addr_some.mp h
  obtain ⟨u₁, rfl, h₁⟩ := htakes ha
  obtain ⟨u₂, rfl, h₂⟩ := htakes hb
  obtain ⟨u₃, rfl, h₃⟩ := htakes hc
  obtain ⟨u₄, rfl, h₄⟩ := htakes hd
  refine ⟨u₁ ++ 0x2E :: (u₂ ++ 0x2E :: (u₃ ++ 0x2E :: u₄)), by simp, ?_⟩
  simp only [displayIpv4, List.length_append, List.length_cons]
  show (decimal (UInt8.ofNat a).toNat).length + ((decimal (UInt8.ofNat b).toNat).length + 1) +
    ((decimal (UInt8.ofNat c).toNat).length + 1) + ((decimal (UInt8.ofNat d).toNat).length + 1) ≤ _
  omega

/-- What is read as groups takes a byte a group, and is no more than is left
to read. -/
theorem readGroups_takes {remaining : Nat} {groups all : List UInt16} {ipv4 : Bool}
    (h : readGroups remaining groups text = ((all, ipv4), rest)) : ∃ more used, all = groups ++ more ∧
      text = used ++ rest ∧ more.length ≤ used.length ∧ more.length ≤ remaining := by
  have hsep : ∀ {α : Type} {inner : Reader α} {i : Nat} {text : List UInt8} {r : α × List UInt8},
      readSeparator 0x3A i inner text = some r → ∃ before after, text = before ++ after ∧ inner after = some r := by
    intro α inner i text r h
    cases i with
    | zero => exact ⟨[], text, rfl, h⟩
    | succ i =>
      obtain ⟨after, ht, hi⟩ := readSeparator_some.mp h
      exact ⟨[0x3A], after, ht, hi⟩
  induction remaining generalizing groups text with
  | zero =>
    cases h
    exact ⟨[], [], by simp, rfl, by simp, by simp⟩
  | succ remaining ih =>
    rw [readGroups] at h
    split at h
    · next octets after hv4 =>
      cases h
      obtain ⟨hleft, hread⟩ := (Option.ite_none_right_eq_some).mp hv4
      obtain ⟨before, mid, rfl, hmid⟩ := hsep hread
      obtain ⟨used, rfl, hle⟩ := readIpv4Addr_takes hmid
      refine ⟨_, before ++ used, rfl, by simp, ?_, by simp; omega⟩
      have hdots : 2 ≤ (displayIpv4 octets).length := by
        simp only [displayIpv4, List.length_append, List.length_cons]
        omega
      simp only [List.length_append, List.length_cons, List.length_nil]
      omega
    · split at h
      · next group after hg =>
        obtain ⟨before, mid, rfl, hmid⟩ := hsep hg
        obtain ⟨_, used, rfl, hle⟩ := readNumber_takes (by decide) hmid
        obtain ⟨more, used', rfl, rfl, hmore, hcount⟩ := ih h
        have hpos : 0 < (numeral 16 group).length := length_numeral_pos
        refine ⟨.ofNat group :: more, before ++ used ++ used', by simp, by simp, ?_, by simp; omega⟩
        simp only [List.length_append, List.length_cons]
        omega
      · cases h
        exact ⟨[], [], by simp, rfl, by simp, by simp⟩

/-- The last segment of `::1` is on the right of the `::`, or there is none. -/
theorem readIpv6Addr_takes (h : readIpv6Addr text = some (loopbackIpv6, rest)) :
    ∃ used, text = used ++ rest ∧ (displayIpv6 loopbackIpv6).length ≤ used.length := by
  have hthree : (displayIpv6 loopbackIpv6).length = 3 := by decide
  rw [hthree]
  rw [readIpv6Addr] at h
  obtain ⟨⟨⟨head, headIpv4⟩, after⟩, hhead⟩ : ∃ r, readGroups 8 [] text = r := ⟨_, rfl⟩
  obtain ⟨_, used, rfl, rfl, hle, hcount⟩ := readGroups_takes hhead
  rw [hhead] at h
  dsimp only at h
  split at h
  · next hlen =>
    obtain ⟨_, rfl⟩ := Prod.mk.inj (Option.some.inj h)
    exact ⟨used, rfl, by omega⟩
  · next hlen =>
    obtain ⟨_, hrest⟩ := (Option.ite_none_left_eq_some).mp h
    obtain ⟨⟨_, t₁⟩, h₁, hrest⟩ := Option.bind_eq_some_iff.mp hrest
    obtain ⟨⟨_, t₂⟩, h₂, hresult⟩ := Option.bind_eq_some_iff.mp hrest
    clear h hrest
    rw [readGivenChar_some] at h₁ h₂
    dsimp only at hresult h₁ h₂
    subst h₁ h₂
    obtain ⟨⟨⟨tail, _⟩, after'⟩, htail⟩ : ∃ r, readGroups (8 - (head.length + 1)) [] t₂ = r := ⟨_, rfl⟩
    rw [htail] at hresult
    obtain ⟨_, used', rfl, rfl, hle', _⟩ := readGroups_takes htail
    obtain ⟨hseg, rfl⟩ := Prod.mk.inj (Option.some.inj hresult)
    dsimp only at hseg
    refine ⟨used ++ [0x3A, 0x3A] ++ used', by simp, ?_⟩
    have htail : tail ≠ [] := by
      intro hnil
      subst hnil
      have hlast : (head ++ List.replicate (8 - 0 - head.length) 0 ++ []).getD 7 0 = (1 : UInt16) := by
        have h := congrArg (·[7]) hseg
        rwa [segments, Vector.getElem_ofFn] at h
      rw [List.append_nil, List.getD_eq_getElem?_getD, List.getElem?_append_right (by omega),
        List.getElem?_replicate_of_lt (by omega)] at hlast
      exact absurd hlast (by decide)
    have hpos := List.length_pos_iff.mpr htail
    simp only [List.length_append, List.length_cons, List.length_nil]
    omega

/-- What a listener bound to an address has for its own: a port that is free
where none was asked for, and of an IPv6 address no flow and no other
scope. -/
inductive Listens : SocketAddr → SocketAddr → Prop
  | v4 {ip : Vector UInt8 4} {port port' : UInt16} (hp : port' ≠ 0) (hsame : port ≠ 0 → port' = port) :
    Listens (.v4 ip port) (.v4 ip port')
  | v6 {ip : Vector UInt16 8} {port port' : UInt16} {flowinfo scopeId scopeId' : UInt32} (hp : port' ≠ 0)
      (hsame : port ≠ 0 → port' = port) (hscope : scopeId' = 0 ∨ scopeId' = scopeId) :
    Listens (.v6 ip port flowinfo scopeId) (.v6 ip port' 0 scopeId')

theorem Listens.ip {bound a : SocketAddr} (h : Listens bound a) : a.ip = bound.ip := by
  cases h <;> rfl

theorem Listens.port_ne {bound a : SocketAddr} (h : Listens bound a) : a.port ≠ 0 := by
  cases h <;> assumption

/-- The host reads where the listener is. -/
theorem Listens.parse_display {bound a : SocketAddr} (h : Listens bound a) (hl : bound.ip.isLoopback = true) :
    parse (display a) = some a := by
  refine SocketText.parse_display (h.ip ▸ hl) fun ip port flowinfo scopeId he => ?_
  cases h with
  | v4 => cases he
  | v6 => cases he; rfl

theorem readPort_takes {port : Nat} (h : readPort text = some (port, rest)) :
    ∃ used, text = used ++ rest ∧ 2 ≤ used.length := by
  simp only [readPort, bind_some, readGivenChar_some] at h
  obtain ⟨_, after, rfl, hn⟩ := h
  obtain ⟨_, used, rfl, hle⟩ := readNumber_takes (by decide) hn
  have hpos : 0 < (numeral 10 port).length := length_numeral_pos
  exact ⟨0x3A :: used, rfl, by simp; omega⟩

theorem readScopeIdOr_takes {scopeId : Nat} (h : readScopeIdOr text = some (scopeId, rest)) :
    ∃ used, text = used ++ rest ∧ (displayScope (.ofNat scopeId)).length ≤ used.length := by
  rw [readScopeIdOr, Option.some.injEq] at h
  cases hread : readScopeId text with
  | none =>
    rw [hread] at h
    cases h
    exact ⟨[], rfl, by simp [displayScope]⟩
  | some r =>
    rw [hread] at h
    cases h
    simp only [readScopeId, bind_some, readGivenChar_some] at hread
    obtain ⟨_, after, rfl, hn⟩ := hread
    obtain ⟨hlt, used, rfl, hle⟩ := readNumber_takes (by decide) hn
    refine ⟨0x25 :: used, rfl, ?_⟩
    rw [displayScope]
    split
    · simp
    · rw [UInt32.toNat_ofNat_of_lt' hlt, List.length_cons, List.length_cons]
      exact Nat.succ_le_succ hle

theorem parse_some {a : SocketAddr} (h : parse text = some a) :
    readSocketAddrV4 text = some (a, []) ∨ readSocketAddrV6 text = some (a, []) := by
  rw [parse] at h
  split at h
  · next address hread =>
    cases h
    cases hv4 : readSocketAddrV4 text with
    | some r =>
      rw [hv4] at hread
      exact .inl hread
    | none =>
      rw [hv4] at hread
      exact .inr hread
  · cases h

/-- **A listener's address is at most four bytes longer than a text its
loopback address was read from**: the text has a digit for the port. -/
theorem Listens.length_display {bound a : SocketAddr} (h : Listens bound a) (hl : bound.ip.isLoopback = true)
    (hp : parse text = some bound) : (display a).length ≤ text.length + 4 := by
  have hport : ∀ port : UInt16, (decimal port.toNat).length ≤ 5 := fun port => by
    have hlt := port.toNat_lt
    exact (length_numeral_le (by decide) (by decide)).mpr (by omega)
  rcases parse_some hp with hread | hread
  · simp only [readSocketAddrV4, bind_some, pure_some] at hread
    obtain ⟨ip, t, hip, port, t', hport', he⟩ := hread
    cases he
    obtain ⟨used, rfl, hle⟩ := readIpv4Addr_takes hip
    obtain ⟨used', rfl, hle'⟩ := readPort_takes hport'
    cases h with
    | @v4 _ _ port' =>
      have := hport port'
      simp only [display, List.length_append, List.length_cons, List.length_nil]
      omega
  · simp only [readSocketAddrV6, bind_some, pure_some, readGivenChar_some] at hread
    obtain ⟨_, t, rfl, ip, t₁, hip, scopeId, t₂, hscope, _, t₃, rfl, port, t₄, hport', he⟩ := hread
    cases he
    obtain rfl : ip = loopbackIpv6 := eq_of_beq hl
    obtain ⟨used, rfl, hle⟩ := readIpv6Addr_takes hip
    obtain ⟨used', rfl, hle'⟩ := readScopeIdOr_takes hscope
    obtain ⟨used'', rfl, hle''⟩ := readPort_takes hport'
    cases h with
    | @v6 _ _ port' _ _ scopeId' _ _ hsame =>
      have := hport port'
      have hscope' : (displayScope scopeId').length ≤ used'.length := by
        rcases hsame with rfl | rfl
        · simp [displayScope]
        · exact hle'
      simp only [display, List.length_append, List.length_cons, List.length_nil]
      omega

end SocketText

end ProviderSdk
