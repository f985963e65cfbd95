/-
The keys of mapping units (`MappingUnitKey::parse` in `mapping.rs`).

A key is a namespace and an opaque part with `://` between them. No
namespace has a colon, so the first `://` is the only one a key can be split
at, however many more its opaque part has.
-/
import ProviderSdk.Validation

namespace ProviderSdk

open Checks Text

/-- A namespace: an ASCII letter, then letters, digits, `.`, `_` and `-`. -/
def MappingNamespace (n : String) : Prop :=
  ∃ c cs, n.toList = c :: cs ∧ c.isAlpha = true ∧ ∀ x ∈ cs, x.isAlphanum = true ∨ x = '.' ∨ x = '_' ∨ x = '-'

/-- An opaque part: any text without controls, whitespace and the characters
lists of keys are written with. -/
def MappingOpaque (o : String) : Prop :=
  o ≠ "" ∧ ∀ c ∈ o.toList, isControl c = false ∧ isWhitespace c = false ∧ c ∉ [',', '<', '>', '[', ']']

theorem mappingNamespaceAccepted_iff {n : String} :
    mappingNamespaceAccepted n.toList = true ↔ MappingNamespace n := by
  unfold mappingNamespaceAccepted MappingNamespace
  cases n.toList with
  | nil => simp
  | cons c cs => simp

theorem mappingOpaque_iff {o : String} :
    ¬ (o.toList.isEmpty = true ∨ o.toList.any mappingOpaqueRejected = true) ↔ MappingOpaque o := by
  have hempty : o.toList.isEmpty = true ↔ o = "" := by simp
  simp only [MappingOpaque, not_or, hempty, List.any_eq_true, not_exists, not_and, mappingOpaqueRejected,
    Bool.or_eq_true, Bool.not_eq_true, List.contains_iff_mem, ne_eq, and_assoc]

/-- No character of a namespace is a colon. -/
theorem MappingNamespace.no_colon {n : String} (h : MappingNamespace n) : ':' ∉ n.toList := by
  obtain ⟨c, cs, hn, hc, hcs⟩ := h
  have halpha : (':' : Char).isAlpha = false := by decide
  have halnum : (':' : Char).isAlphanum = false := by decide
  rw [hn, List.mem_cons]
  intro hm
  rcases hm with he | hm
  · rw [← he, halpha] at hc
    cases hc
  · rcases hcs _ hm with h | h | h | h
    · rw [halnum] at h
      cases h
    · cases h
    · cases h
    · cases h

/-- A key of the grammar splits into its two parts. -/
theorem MappingNamespace.split {n : String} (h : MappingNamespace n) (o : String) :
    splitOnce [':', '/', '/'] (n ++ "://" ++ o).toList = some (n.toList, o.toList) := by
  rw [String.toList_append, String.toList_append]
  exact splitOnce_append h.no_colon

/-- What begins with a namespace is not all whitespace. -/
theorem MappingNamespace.trim_ne_nil {n : String} (h : MappingNamespace n) (rest : String) :
    trim (n ++ rest).toList ≠ [] := by
  obtain ⟨c, cs, hn, hc, _⟩ := h
  have hm : c ∈ (n ++ rest).toList := by
    rw [String.toList_append, hn]
    exact List.mem_append_left _ (List.mem_cons_self ..)
  intro ht
  have hw := trim_eq_nil.mp ht c hm
  rw [isWhitespace_of_isAlpha hc] at hw
  cases hw

/-- What `MappingUnitKey::parse` returns is the one reading of the text. -/
theorem MappingUnitKey.parse_ok {v : String} {k : MappingUnitKey} :
    MappingUnitKey.parse v = .ok k ↔ v.utf8ByteSize ≤ maximumMappingUnitKeyBytes ∧ k.value = v ∧
      MappingNamespace k.namespaceName ∧ MappingOpaque k.opaquePart ∧
      v = k.namespaceName ++ "://" ++ k.opaquePart := by
  simp only [parse, bind_ok, reject_ok, okOr_ok, exists_const, gt_iff_lt, Nat.not_lt, pure_ok]
  refine ⟨fun h => ?_, fun h => ?_⟩
  · obtain ⟨_, hlen, ⟨before, after⟩, hs, hparts, he⟩ := h
    subst he
    have hn : MappingNamespace (String.ofList before) := by
      rw [← mappingNamespaceAccepted_iff, String.toList_ofList]
      exact not_not.mp (not_or.mp hparts).1
    have ho : MappingOpaque (String.ofList after) := by
      rw [← mappingOpaque_iff, String.toList_ofList]
      exact (not_or.mp hparts).2
    have hv : v = String.ofList before ++ "://" ++ String.ofList after := by
      rw [← String.toList_inj]
      simp only [String.toList_append, String.toList_ofList]
      exact splitOnce_eq_some hs
    exact ⟨hlen, rfl, hn, ho, hv⟩
  · obtain ⟨hlen, hvalue, hn, ho, hv⟩ := h
    have htrim : trim v.toList ≠ [] := by
      rw [hv, String.append_assoc]
      exact hn.trim_ne_nil _
    have hsplit := hn.split k.opaquePart
    rw [← hv] at hsplit
    have hparts := not_or.mpr ⟨not_not.mpr (mappingNamespaceAccepted_iff.mpr hn), mappingOpaque_iff.mpr ho⟩
    refine ⟨by simpa using htrim, hlen, _, hsplit, hparts, ?_⟩
    rw [String.ofList_toList, String.ofList_toList, ← hvalue]

/-- **The grammar of unit keys.** Exactly the texts of the grammar are
accepted, each has one reading, and that reading is what is returned. -/
theorem MappingUnitKey.parse_iff (v : String) :
    ((∃ k, MappingUnitKey.parse v = .ok k) ↔ v.utf8ByteSize ≤ 4096 ∧
      ∃ n o : String, v = n ++ "://" ++ o ∧ MappingNamespace n ∧ MappingOpaque o) ∧
    (∀ n o n' o' : String, v = n ++ "://" ++ o → MappingNamespace n → MappingOpaque o →
      v = n' ++ "://" ++ o' → MappingNamespace n' → MappingOpaque o' → n = n' ∧ o = o') ∧
    (∀ k, MappingUnitKey.parse v = .ok k → k.value = v ∧ k.namespaceName ++ "://" ++ k.opaquePart = v) ∧
    ∀ k n o, MappingUnitKey.parse v = .ok k → v = n ++ "://" ++ o → MappingNamespace n → MappingOpaque o →
      k.namespaceName = n ∧ k.opaquePart = o := by
  have hunique : ∀ n o n' o' : String, v = n ++ "://" ++ o → MappingNamespace n →
      v = n' ++ "://" ++ o' → MappingNamespace n' → n = n' ∧ o = o' := by
    intro n o n' o' hv hn hv' hn'
    have hs := hn.split o
    have hs' := hn'.split o'
    rw [← hv] at hs
    rw [← hv', hs, Option.some.injEq, Prod.mk.injEq, String.toList_inj, String.toList_inj] at hs'
    exact hs'
  refine ⟨⟨fun h => ?_, fun h => ?_⟩, fun n o n' o' hv hn _ hv' hn' _ => hunique n o n' o' hv hn hv' hn',
    fun k h => ?_, fun k n o h hv hn _ => ?_⟩
  · obtain ⟨k, h⟩ := h
    obtain ⟨hlen, _, hn, ho, hv⟩ := parse_ok.mp h
    exact ⟨hlen, _, _, hv, hn, ho⟩
  · obtain ⟨hlen, n, o, hv, hn, ho⟩ := h
    exact ⟨⟨v, n, o⟩, parse_ok.mpr ⟨hlen, rfl, hn, ho, hv⟩⟩
  · obtain ⟨_, hvalue, _, _, hv⟩ := parse_ok.mp h
    exact ⟨hvalue, hv.symm⟩
  · obtain ⟨_, _, hn', _, hv'⟩ := parse_ok.mp h
    exact hunique _ _ _ _ hv' hn' hv hn

end ProviderSdk
