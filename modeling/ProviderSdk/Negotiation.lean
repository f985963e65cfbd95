/-
The protocol version an adapter and a host agree on (`lib.rs`).

Versions are ordered by major, then by minor, and a range is what lies
between its bounds. Of the errors of `negotiate_protocol` each says what of
that range is not shared (`negotiateProtocol_iff`), although the code
compares the bounds alone.
-/
import Mathlib.Data.Prod.Lex
import Mathlib.Data.Set.Insert
import ProviderSdk.Lib.Checks
import ProviderSdk.V1

namespace ProviderSdk

open Checks V1

inductive ProtocolNegotiationError where
  | missingMinimum
  | missingMaximum
  | invertedRange
  | incompatibleMajor
  | incompatibleMinor
  deriving DecidableEq

/-- The tuples the code compares. -/
def V1.ProtocolVersion.tuple (v : ProtocolVersion) : Nat ×ₗ Nat := toLex (v.major.toNat, v.minor.toNat)

def protocolMajor : UInt32 := 1

def protocolMinor : UInt32 := 0

def currentProtocolVersion : ProtocolVersion := ⟨protocolMajor, protocolMinor⟩

/-- `negotiate_protocol`, for an adapter of the version given. -/
def negotiateAs (current : ProtocolVersion) (supported : ProtocolRange) :
    Except ProtocolNegotiationError ProtocolVersion := do
  let minimum ← okOr supported.minimum .missingMinimum
  let maximum ← okOr supported.maximum .missingMaximum
  reject (minimum.tuple > maximum.tuple) .invertedRange
  reject (current.major < minimum.major ∨ current.major > maximum.major) .incompatibleMajor
  reject (current.tuple < minimum.tuple ∨ current.tuple > maximum.tuple) .incompatibleMinor
  pure current

def negotiateProtocol : ProtocolRange → Except ProtocolNegotiationError ProtocolVersion :=
  negotiateAs currentProtocolVersion

/-! ## The versions of a range -/

/-- The versions a range spans, none where a bound is missing. -/
def V1.ProtocolRange.versions (range : ProtocolRange) : Set ProtocolVersion :=
  {v | ∃ minimum maximum, range.minimum = some minimum ∧ range.maximum = some maximum ∧
    minimum.tuple ≤ v.tuple ∧ v.tuple ≤ maximum.tuple}

variable {v w minimum maximum current : ProtocolVersion}

theorem V1.ProtocolVersion.tuple_le : v.tuple ≤ w.tuple ↔
    v.major.toNat < w.major.toNat ∨ v.major.toNat = w.major.toNat ∧ v.minor.toNat ≤ w.minor.toNat :=
  Prod.Lex.toLex_le_toLex

theorem mem_versions : v ∈ ProtocolRange.versions ⟨some minimum, some maximum⟩ ↔
    minimum.tuple ≤ v.tuple ∧ v.tuple ≤ maximum.tuple := by
  simp [ProtocolRange.versions]

/-- Between two bounds there is nothing only if they are inverted. -/
theorem versions_eq_empty : ProtocolRange.versions ⟨some minimum, some maximum⟩ = ∅ ↔
    minimum.tuple > maximum.tuple := by
  simp only [Set.eq_empty_iff_forall_notMem, mem_versions, not_and, not_le]
  refine ⟨fun h => h minimum le_rfl, fun h v hv => ?_⟩
  exact h.trans_le hv

/-- The majors of a range are those between its bounds' majors: a bound of
the major itself has it, and between two others any minor does. -/
theorem exists_major (h : minimum.tuple ≤ maximum.tuple) :
    (∃ v ∈ ProtocolRange.versions ⟨some minimum, some maximum⟩, v.major = current.major) ↔
      ¬ (current.major < minimum.major ∨ current.major > maximum.major) := by
  simp only [mem_versions, not_or, UInt32.lt_iff_toNat_lt, gt_iff_lt, Nat.not_lt]
  refine ⟨fun hv => ?_, fun hc => ?_⟩
  · obtain ⟨v, ⟨hlow, hhigh⟩, hmajor⟩ := hv
    rw [ProtocolVersion.tuple_le] at hlow hhigh
    rw [← hmajor]
    omega
  · by_cases hlow : minimum.major = current.major
    · exact ⟨minimum, ⟨le_rfl, h⟩, hlow⟩
    · by_cases hhigh : maximum.major = current.major
      · exact ⟨maximum, ⟨h, le_rfl⟩, hhigh⟩
      · rw [← UInt32.toNat_inj] at hlow hhigh
        simp only [ProtocolVersion.tuple_le]
        exact ⟨current, ⟨by omega, by omega⟩, rfl⟩

open Classical in
/-- The comparisons of the bounds, as questions about the range. -/
theorem negotiateAs_bounds {range : ProtocolRange} (hlow : range.minimum = some minimum)
    (hhigh : range.maximum = some maximum) : negotiateAs current range =
      if range.versions = ∅ then .error .invertedRange
      else if ∀ v ∈ range.versions, v.major ≠ current.major then .error .incompatibleMajor
      else if current ∉ range.versions then .error .incompatibleMinor
      else .ok current := by
  obtain ⟨low, high⟩ := range
  cases hlow
  cases hhigh
  show (reject _ _ >>= fun _ => reject _ _ >>= fun _ => reject _ _ >>= fun _ => Except.ok current) = _
  by_cases hinverted : minimum.tuple > maximum.tuple
  · rw [if_pos (versions_eq_empty.mpr hinverted), reject, if_pos hinverted]
    rfl
  rw [if_neg (versions_eq_empty.not.mpr hinverted), reject, if_neg hinverted, ok_bind]
  have hmajor : (∃ v ∈ ProtocolRange.versions ⟨some minimum, some maximum⟩, v.major = current.major) ↔
      ¬ (current.major < minimum.major ∨ current.major > maximum.major) := exists_major (not_lt.mp hinverted)
  by_cases hother : current.major < minimum.major ∨ current.major > maximum.major
  · have hnone : ∀ v ∈ ProtocolRange.versions ⟨some minimum, some maximum⟩, v.major ≠ current.major := by
      intro v hv he
      exact hmajor.mp ⟨v, hv, he⟩ hother
    rw [if_pos hnone, reject, if_pos hother]
    rfl
  have hsome : ¬ ∀ v ∈ ProtocolRange.versions ⟨some minimum, some maximum⟩, v.major ≠ current.major := by
    intro hnone
    obtain ⟨v, hv, he⟩ := hmajor.mpr hother
    exact hnone v hv he
  have hminor : (current.tuple < minimum.tuple ∨ current.tuple > maximum.tuple) ↔
      current ∉ ProtocolRange.versions ⟨some minimum, some maximum⟩ := by
    rw [mem_versions, not_and_or, not_le, not_le]
  rw [if_neg hsome, reject, if_neg hother, ok_bind, reject]
  by_cases hmissing : current ∉ ProtocolRange.versions ⟨some minimum, some maximum⟩
  · rw [if_pos hmissing, if_pos (hminor.mpr hmissing)]
    rfl
  · rw [if_neg hmissing, if_neg (hminor.not.mpr hmissing)]
    rfl

/-- **What is negotiated.** An adapter gets its own version exactly where the
range has it. It is told the range is inverted exactly where it spans no
version, that the majors differ where no version of the range has the
adapter's major, and that the minors differ where some has it, but the
adapter's own version is missing. -/
theorem negotiateProtocol_iff (supported : ProtocolRange) :
    (∀ v, negotiateProtocol supported = .ok v ↔ v = currentProtocolVersion ∧ v ∈ supported.versions) ∧
    (negotiateProtocol supported = .error .missingMinimum ↔ supported.minimum = none) ∧
    (negotiateProtocol supported = .error .missingMaximum ↔
      supported.minimum ≠ none ∧ supported.maximum = none) ∧
    (negotiateProtocol supported = .error .invertedRange ↔
      supported.minimum ≠ none ∧ supported.maximum ≠ none ∧ supported.versions = ∅) ∧
    (negotiateProtocol supported = .error .incompatibleMajor ↔
      supported.versions.Nonempty ∧ ∀ v ∈ supported.versions, v.major ≠ currentProtocolVersion.major) ∧
    (negotiateProtocol supported = .error .incompatibleMinor ↔
      (∃ v ∈ supported.versions, v.major = currentProtocolVersion.major) ∧
        currentProtocolVersion ∉ supported.versions) := by
  rw [negotiateProtocol]
  cases hlow : supported.minimum with
  | none =>
    have hempty : supported.versions = ∅ := by simp [ProtocolRange.versions, hlow]
    have hmissing : negotiateAs currentProtocolVersion supported = .error .missingMinimum := by
      rw [negotiateAs, hlow]
      rfl
    simp [hmissing, hempty]
  | some minimum =>
    cases hhigh : supported.maximum with
    | none =>
      have hempty : supported.versions = ∅ := by simp [ProtocolRange.versions, hhigh]
      have hmissing : negotiateAs currentProtocolVersion supported = .error .missingMaximum := by
        rw [negotiateAs, hlow, hhigh]
        rfl
      simp [hmissing, hempty]
    | some maximum =>
      rw [negotiateAs_bounds hlow hhigh]
      by_cases hempty : supported.versions = ∅
      · simp [hempty]
      have hspans : supported.versions.Nonempty := Set.nonempty_iff_ne_empty.mpr hempty
      rw [if_neg hempty]
      by_cases hmajor : ∀ v ∈ supported.versions, v.major ≠ currentProtocolVersion.major
      · have hmissing : currentProtocolVersion ∉ supported.versions := fun h => hmajor _ h rfl
        have hnone : ¬ ∃ v ∈ supported.versions, v.major = currentProtocolVersion.major := by
          intro h
          obtain ⟨v, hv, he⟩ := h
          exact hmajor v hv he
        rw [if_pos hmajor]
        refine ⟨fun v => ⟨nofun, fun h => absurd (h.1 ▸ h.2) hmissing⟩, by simp, by simp, by simp [hempty], ?_, ?_⟩
        · exact ⟨fun _ => ⟨hspans, hmajor⟩, fun _ => rfl⟩
        · exact ⟨nofun, fun h => absurd h.1 hnone⟩
      · have hshared : ∃ v ∈ supported.versions, v.major = currentProtocolVersion.major := by
          simpa only [not_forall, not_not, ne_eq, exists_prop] using hmajor
        rw [if_neg hmajor]
        by_cases hmissing : currentProtocolVersion ∉ supported.versions
        · rw [if_pos hmissing]
          simp [hempty, hmissing, hmajor, hshared]
        · have hown : currentProtocolVersion ∈ supported.versions := not_not.mp hmissing
          rw [if_neg hmissing]
          simp [hempty, hown, hmajor, eq_comm]

/-! ## What a provider offers -/

/-- `supported_protocol_range` (`bootstrap.rs`). -/
def supportedProtocolRange : ProtocolRange where
  minimum := some currentProtocolVersion
  maximum := some currentProtocolVersion

theorem V1.ProtocolVersion.tuple_injective : Function.Injective ProtocolVersion.tuple := by
  intro v w h
  obtain ⟨hmajor, hminor⟩ := Prod.mk.inj (toLex_inj.mp h)
  obtain ⟨major, minor⟩ := v
  exact congrArg₂ ProtocolVersion.mk (UInt32.toNat_inj.mp hmajor) (UInt32.toNat_inj.mp hminor)

theorem versions_supportedProtocolRange : supportedProtocolRange.versions = {currentProtocolVersion} := by
  refine Set.ext fun v => mem_versions.trans ⟨fun h => ?_, fun h => ?_⟩
  · exact ProtocolVersion.tuple_injective (h.2.antisymm h.1)
  · rw [Set.mem_singleton_iff.mp h]
    exact ⟨le_rfl, le_rfl⟩

/-- A side of another version agrees with no provider of this one. -/
theorem negotiateAs_supportedProtocolRange :
    negotiateAs current supportedProtocolRange = .ok v ↔ current = currentProtocolVersion ∧ v = current := by
  rw [negotiateAs_bounds rfl rfl, versions_supportedProtocolRange]
  by_cases hown : current = currentProtocolVersion
  · subst hown
    simp [eq_comm]
  · have hmissing : current ∉ ({currentProtocolVersion} : Set ProtocolVersion) := hown
    simp only [Set.singleton_ne_empty, if_false, hmissing, not_false_eq_true, if_true, hown, false_and, iff_false]
    split <;> simp

end ProviderSdk
