/-
What monotone protection is worth (`completion_operation.rs`).

An operation discloses how it writes to a native library that others write
to as well. Where it claims monotone protection, its effects must all be
merges: of the four kinds of change these alone add to what the library
holds, so the check refuses exactly the claims that do not hold
(`validate_monotone_iff`). Operations it accepts may then be executed in
part, again and in any order, also while others add to the library, and
nothing is lost (`monotone_converges`).
-/
import Mathlib.Data.Fintype.BigOperators
import ProviderSdk.Lib.Writes
import ProviderSdk.PreparedOperation
import ProviderSdk.SampleJson

namespace ProviderSdk

open Checks Text Writes

variable {V : Type}

/-! ## What a library holds -/

/-- What a library holds in a scope: the completed units, their number where
it keeps no more, a value, and the entries of a history. -/
structure Native (V : Type) where
  completed : Set Identity
  cardinality : Option UInt32
  value : Option V
  entries : List V

@[ext] theorem Native.ext {m n : Native V} (hc : m.completed = n.completed) (hn : m.cardinality = n.cardinality)
    (hv : m.value = n.value) (he : m.entries = n.entries) : m = n := by
  cases m; cases n; simp_all

/-- What was held is kept: more units may be completed and entries follow,
but no number or value is replaced. -/
instance : PartialOrder (Native V) where
  le m n := m.completed ⊆ n.completed ∧ m.cardinality = n.cardinality ∧ m.value = n.value ∧ m.entries <+: n.entries
  le_refl n := ⟨subset_rfl, rfl, rfl, List.prefix_rfl⟩
  le_trans m n o h h' :=
    ⟨h.1.trans h'.1, h.2.1.trans h'.2.1, h.2.2.1.trans h'.2.2.1, List.IsPrefix.trans h.2.2.2 h'.2.2.2⟩
  le_antisymm m n h h' := Native.ext (h.1.antisymm h'.1) h.2.1 h.2.2.1
    (h.2.2.2.eq_of_length (Nat.le_antisymm h.2.2.2.length_le h'.2.2.2.length_le))

abbrev NativeLibrary (V : Type) : Type := EffectScope → Native V

/-! ## What a change writes -/

/-- The units a setter or a merge makes complete. -/
def Progress.completedIn (domain : Domain) : Progress → Set Identity
  | .items completed => {u | u ∈ completed}
  | .prefixCount completed => {u | u ∈ domain.units.take completed.toNat}
  | .cardinality _ => ∅

def Change.write : Change V → Native V → Native V
  | .setCompletion _ _ (.cardinality completed), n => { n with cardinality := some completed }
  | .setCompletion domain _ after, n => { n with completed := after.completedIn domain }
  | .mergeItems _ _ additions, n => { n with completed := n.completed ∪ {u | u ∈ additions} }
  | .setValue _ after, n => { n with value := some after }
  | .append value, n => { n with entries := n.entries ++ [value] }

/-- An effect writes in its scope alone. -/
def Effect.write (e : Effect V) (library : NativeLibrary V) : NativeLibrary V :=
  Function.update library e.scope (e.change.write (library e.scope))

/-! ## A unit no domain has -/

/-- A character for each bit. -/
def bitText (bits : Fin 17 → Bool) : List Char := List.ofFn fun i => if bits i then '1' else '0'

theorem bitText_accepted (bits : Fin 17 → Bool) : identityAccepted (String.ofList (bitText bits)) = true := by
  have hchars : ∀ c ∈ bitText bits, c = '1' ∨ c = '0' := by
    intro c hc
    obtain ⟨i, rfl⟩ := List.mem_ofFn.mp hc
    cases bits i <;> simp
  have hbytes : ∀ c ∈ bitText bits, (String.utf8EncodeChar c).length = 1 := by
    intro c hc
    rcases hchars c hc with rfl | rfl <;> rfl
  have hsize : (String.ofList (bitText bits)).utf8ByteSize = 17 := by
    rw [← length_utf8, utf8_ofList, List.length_flatMap, List.map_congr_left hbytes]
    simp [bitText]
  have hplain : hasControl (String.ofList (bitText bits)) = false := by
    rw [hasControl_eq_false, String.toList_ofList]
    intro c hc
    rcases hchars c hc with rfl | rfl <;> rfl
  have hne : String.ofList (bitText bits) ≠ "" := by
    intro h
    rw [h] at hsize
    cases hsize
  simp [identityAccepted, hsize, hplain, hne]

/-- Some identity is not a unit of a domain. -/
theorem Domain.exists_foreign (d : Domain) : ∃ u : Identity, u ∉ d.units := by
  by_contra h
  simp only [not_exists, not_not] at h
  let unit (bits : Fin 17 → Bool) : Identity := ⟨.sample, String.ofList (bitText bits), bitText_accepted bits⟩
  have hinj : Function.Injective fun bits => (⟨d.units.idxOf (unit bits), List.idxOf_lt_length_iff.mpr (h _)⟩ :
      Fin d.units.length) := by
    intro bits bits' he
    have hunit : unit bits = unit bits' := (List.idxOf_inj (h _)).mp (Fin.mk.inj he)
    have htext : bitText bits = bitText bits' := String.ofList_injective (congrArg Identity.value hunit)
    funext i
    have hi := congrFun (List.ofFn_injective htext) i
    cases hb : bits i <;> cases hb' : bits' i <;> simp_all
  have hcard := Fintype.card_le_of_injective _ hinj
  have hle := d.ok.bounded
  simp only [Fintype.card_fun, Fintype.card_bool, Fintype.card_fin] at hcard
  simp only [maximumDomainUnits] at hle
  omega

/-! ## The changes that add -/

theorem Change.adds_mergeItems {domain : Domain} {before additions : BTreeSet Identity} :
    Adds (Change.write (.mergeItems domain before additions : Change V)) where
  grows n := ⟨Set.subset_union_left, rfl, rfl, List.prefix_rfl⟩
  settles n := by
    refine Native.ext ?_ rfl rfl rfl
    show n.completed ∪ _ ∪ _ = n.completed ∪ _
    rw [Set.union_assoc, Set.union_self]

/-- A library that holds nothing in a scope. -/
def Native.empty : Native V := ⟨∅, none, none, []⟩

/-- A setter takes away units another client completed. -/
theorem Change.not_grows_setCompletion {domain : Domain} {before after : Progress} (h : after.Valid domain) :
    ¬ Grows (Change.write (.setCompletion domain before after : Change V)) := by
  intro hgrows
  obtain ⟨u, hu⟩ := domain.exists_foreign
  have hkept := hgrows { Native.empty with completed := {u} }
  cases after with
  | items completed => exact hu (h u (hkept.1 rfl))
  | prefixCount completed => exact hu (List.mem_of_mem_take (hkept.1 rfl))
  | cardinality completed => cases hkept.2.1

theorem Change.not_grows_setValue {before : BeforeValue V} {after : V} :
    ¬ Grows (Change.write (.setValue before after)) := by
  intro hgrows
  cases (hgrows .empty).2.2.1

/-- An entry that is appended again is there twice. -/
theorem Change.not_settles_append {value : V} :
    ¬ ∀ n, Change.write (.append value) (Change.write (.append value) n) = Change.write (.append value) n := by
  intro hsettles
  cases congrArg Native.entries (hsettles .empty)

/-- Of valid changes, the merges are those that add. -/
theorem Change.adds_iff {change : Change V} (h : change.Valid) : Adds change.write ↔ change.isMergeItems = true := by
  cases change with
  | setCompletion domain before after =>
    refine ⟨fun ha => absurd ha.grows (not_grows_setCompletion h.2.1), fun hm => ?_⟩
    cases hm
  | mergeItems domain before additions => exact ⟨fun _ => rfl, fun _ => adds_mergeItems⟩
  | setValue before after =>
    refine ⟨fun ha => absurd ha.grows not_grows_setValue, fun hm => ?_⟩
    cases hm
  | append value =>
    refine ⟨fun ha => absurd ha.settles not_settles_append, fun hm => ?_⟩
    cases hm

/-- An effect adds to a library if its change adds to what is held in its
scope. -/
theorem Effect.adds_iff_change {e : Effect V} : Adds e.write ↔ Adds e.change.write := by
  have hat : ∀ library : NativeLibrary V, e.write library e.scope = e.change.write (library e.scope) := fun library =>
    Function.update_self ..
  refine ⟨fun h => ⟨fun n => ?_, fun n => ?_⟩, fun h => ⟨fun library => ?_, fun library => ?_⟩⟩
  · have hle := h.grows (fun _ => n) e.scope
    rwa [hat] at hle
  · have heq := congrFun (h.settles fun _ => n) e.scope
    rwa [hat, hat] at heq
  · exact le_update_self_iff.mpr (h.grows _)
  · rw [Effect.write, hat, h.settles]
    exact Function.update_idem ..

theorem Effect.adds_iff {e : Effect V} (h : e.change.Valid) : Adds e.write ↔ e.change.isMergeItems = true :=
  adds_iff_change.trans (Change.adds_iff h)

/-! ## The changes of an operation -/

/-- What an operation writes when all of it is executed once. -/
def PreparedOperation.write (op : PreparedOperation V) : NativeLibrary V → NativeLibrary V :=
  run Effect.write op.effects

theorem run_write_other {effects : List (Effect V)} {library : NativeLibrary V} {scope : EffectScope}
    (h : ∀ e ∈ effects, e.scope ≠ scope) : run Effect.write effects library scope = library scope := by
  induction effects generalizing library with
  | nil => rfl
  | cons e effects ih =>
    rw [run_cons, ih fun e' he' => h e' (List.mem_cons_of_mem _ he')]
    exact Function.update_of_ne (h e List.mem_cons_self).symm ..

/-- In a scope of its own an effect writes what its change writes. -/
theorem run_write_own {effects : List (Effect V)} {library : NativeLibrary V} (hd : (effects.map (·.scope)).Nodup)
    {e : Effect V} (he : e ∈ effects) :
    run Effect.write effects library e.scope = e.change.write (library e.scope) := by
  induction effects generalizing library with
  | nil => cases he
  | cons e' effects ih =>
    obtain ⟨hfresh, hd⟩ := List.nodup_cons.mp hd
    rw [run_cons]
    rcases List.mem_cons.mp he with rfl | he
    · rw [run_write_other fun e' he' heq => hfresh (List.mem_map.mpr ⟨e', he', heq⟩)]
      exact Function.update_self ..
    · have hne : e.scope ≠ e'.scope := fun heq => hfresh (List.mem_map.mpr ⟨e, he, heq⟩)
      rw [ih hd he, Effect.write, Function.update_of_ne hne]

theorem PreparedOperation.adds_iff {op : PreparedOperation V} (hd : (op.effects.map (·.scope)).Nodup)
    (hv : ∀ e ∈ op.effects, e.change.Valid) : Adds op.write ↔ ∀ e ∈ op.effects, e.change.isMergeItems = true := by
  have hown : ∀ library, ∀ e ∈ op.effects, op.write library e.scope = e.change.write (library e.scope) :=
    fun library e he => run_write_own hd he
  have hother : ∀ library scope, (∀ e ∈ op.effects, e.scope ≠ scope) → op.write library scope = library scope :=
    fun library scope h => run_write_other h
  refine ⟨fun h e he => (Change.adds_iff (hv e he)).mp ⟨fun n => ?_, fun n => ?_⟩, fun h => ⟨fun library => ?_, ?_⟩⟩
  · have hle := h.grows (fun _ => n) e.scope
    rwa [hown _ e he] at hle
  · have heq := congrFun (h.settles fun _ => n) e.scope
    rwa [hown _ e he, hown _ e he] at heq
  · exact run_grows fun e he => ((Effect.adds_iff (hv e he)).mpr (h e he)).grows
  · intro library
    funext scope
    by_cases hs : ∀ e ∈ op.effects, e.scope ≠ scope
    · exact hother _ scope hs
    · simp only [not_forall, not_not, ne_eq] at hs
      obtain ⟨e, he, rfl⟩ := hs
      rw [hown _ e he, hown _ e he, ((Change.adds_iff (hv e he)).mpr (h e he)).settles]

/-! ## Claims of monotone protection -/

variable [SerdeJson V]

/-- What an operation is refused for if it claims monotone protection, where
another claim of it is accepted. -/
theorem PreparedOperation.validate_monotone {op : PreparedOperation V} {behavior : Behavior} {protection : Protection}
    (h : { op with protection }.validate behavior = .ok ())
    (hdeclared : ∀ c ∈ behavior.operations, c.operationClass = op.operationClass → .monotoneMerge ∈ c.protection) :
    { op with protection := .monotoneMerge }.validate behavior =
      reject (¬ op.effects.all fun e => e.change.isMergeItems) .unsafeMerge := by
  simp only [validate, bind_ok] at h
  obtain ⟨u₁, h₁, u₂, h₂, c, hc, u₃, h₃, u₄, h₄, u₅, h₅, u₆, h₆, u₇, h₇, u₈, h₈, h₉⟩ := h
  have hreplay : { op with protection := .monotoneMerge }.validateReplay c = .ok u₈ := h₈
  have hpermitted : reject (Protection.kind .monotoneMerge ∉ c.protection) OperationError.unsupportedProtection =
      .ok () := by
    have hfound := okOr_ok.mp hc
    have hclass : c.operationClass = op.operationClass := by simpa using List.find?_some hfound
    exact reject_ok.mpr (not_not.mpr (hdeclared c (List.mem_of_find?_eq_some hfound) hclass))
  simp only [validate, h₁, h₂, hc, h₃, h₄, h₅, hpermitted, hreplay, h₉, ok_bind]
  show (reject _ _ >>= fun _ => Except.ok ()) = _
  unfold reject
  split <;> rfl

/-- **Claims of monotone protection.** Of an operation that some protection
is accepted of, by a behavior that declares the monotone one for its class,
the claim of it is accepted exactly where the operation adds to a library,
and refused as unsafe where it does not. -/
theorem PreparedOperation.validate_monotone_iff (op : PreparedOperation V) (behavior : Behavior)
    (hclaim : ∃ protection, { op with protection }.validate behavior = .ok ())
    (hdeclared : ∀ c ∈ behavior.operations, c.operationClass = op.operationClass → .monotoneMerge ∈ c.protection) :
    ({ op with protection := .monotoneMerge }.validate behavior = .ok () ↔ Adds op.write) ∧
      ({ op with protection := .monotoneMerge }.validate behavior = .error .unsafeMerge ↔ ¬ Adds op.write) := by
  obtain ⟨protection, h⟩ := hclaim
  have hv : ({ op with protection } : PreparedOperation V).Valid behavior := validate_ok.mp h
  have hadds : Adds op.write ↔ ∀ e ∈ op.effects, e.change.isMergeItems = true := adds_iff hv.scopes hv.changes
  rw [validate_monotone h hdeclared, hadds, ← List.all_eq_true]
  unfold reject
  by_cases hm : op.effects.all (fun e => e.change.isMergeItems) = true
  · rw [if_neg (not_not.mpr hm)]
    exact ⟨⟨fun _ => hm, fun _ => rfl⟩, nofun, fun h => absurd hm h⟩
  · rw [if_pos hm]
    exact ⟨⟨nofun, fun h => absurd h hm⟩, fun _ => hm, fun _ => rfl⟩

def secondIdentity : Identity := ⟨.sample, "second", by decide⟩

def pagesDomain : Domain where
  identity := .sample
  revision := "r1"
  unit := .sample
  ordering := .ordered
  units := [.sample, secondIdentity]
  closed := true
  ok := ⟨by decide, by decide, by decide, nofun⟩

def mergeBehavior : Behavior where
  revision := "r1"
  subjectRoles := .new
  units := .collect [.sample]
  operations := [⟨.sample, .collect [.sample], .collect [.monotoneMerge, .bestEffort], false, .new⟩]

def mergeEffect (unit : Identity) : Effect SampleJson where
  scope := ⟨.sample, .sample, .sample⟩
  group := .sample
  change := .mergeItems pagesDomain .new (.collect [unit])

/-- One unit is added to a scope, and entries appended to another. -/
def mergeOperation (unit : Identity) (entries : List SampleJson) : PreparedOperation SampleJson where
  identity := .sample
  operationClass := .sample
  behaviorRevision := "r1"
  preparedAtMilliseconds := 0
  expiresAtMilliseconds := 1
  effects := mergeEffect unit :: entries.map fun entry => ⟨⟨.sample, secondIdentity, .sample⟩, .sample, .append entry⟩
  protection := .monotoneMerge
  replay := .unsupported
  reconciliation := none
  command := ⟨.sample, .text 0⟩

/-- Merges alone are accepted under monotone protection, and a merge with an
append is refused. -/
theorem mergeOperation_adds :
    Adds (mergeOperation .sample []).write ∧ ¬ Adds (mergeOperation .sample [.text 1]).write := by
  have hdeclared : ∀ c ∈ mergeBehavior.operations, c.operationClass = Name.sample → .monotoneMerge ∈ c.protection := by
    decide +kernel
  have hmerge : (mergeOperation .sample []).validate mergeBehavior = .ok () := by decide +kernel
  have happend :
      { mergeOperation .sample [.text 1] with protection := .bestEffort }.validate mergeBehavior = .ok () := by
    decide +kernel
  have hrefused : (mergeOperation .sample [.text 1]).validate mergeBehavior = .error .unsafeMerge := by decide +kernel
  exact ⟨(PreparedOperation.validate_monotone_iff _ _ ⟨_, hmerge⟩ hdeclared).1.mp hmerge,
    (PreparedOperation.validate_monotone_iff _ _ ⟨_, happend⟩ hdeclared).2.mp hrefused⟩

/-! ## Executing them -/

/-- An effect that one of the operations discloses. -/
def Disclosed (ops : List (PreparedOperation V)) (e : Effect V) : Prop := ∃ op ∈ ops, e ∈ op.effects

omit [SerdeJson V] in
theorem Effect.write_comm {e e' : Effect V} (h : e.change.isMergeItems = true) (h' : e'.change.isMergeItems = true)
    (library : NativeLibrary V) : e.write (e'.write library) = e'.write (e.write library) := by
  obtain ⟨scope, group, change⟩ := e
  obtain ⟨scope', group', change'⟩ := e'
  by_cases hs : scope = scope'
  · subst hs
    simp only [write, Function.update_self, Function.update_idem]
    congr 1
    cases change <;> cases h
    cases change' <;> cases h'
    exact Native.ext (Set.union_right_comm ..) rfl rfl rfl
  · simp only [write, Function.update_of_ne hs, Function.update_of_ne (Ne.symm hs)]
    exact Function.update_comm (Ne.symm hs) ..

/-- The operations monotone protection is accepted of. -/
def MonotoneOperations (ops : List (PreparedOperation V)) : Prop :=
  ∀ op ∈ ops, op.protection = .monotoneMerge ∧ ∃ behavior, op.validate behavior = .ok ()

theorem MonotoneOperations.merges {ops : List (PreparedOperation V)} (h : MonotoneOperations ops) {e : Effect V}
    (he : Disclosed ops e) :
    e.change.Valid ∧ ∃ domain before additions, e.change = .mergeItems domain before additions := by
  obtain ⟨op, hop, he⟩ := he
  obtain ⟨hprotection, behavior, hv⟩ := h op hop
  have hvalid := PreparedOperation.validate_ok.mp hv
  have hprotects := hvalid.protects
  rw [PreparedOperation.Protected, hprotection] at hprotects
  exact ⟨hvalid.changes e he, hprotects e he⟩

theorem MonotoneOperations.isMergeItems {ops : List (PreparedOperation V)} (h : MonotoneOperations ops)
    {e : Effect V} (he : Disclosed ops e) : e.change.isMergeItems = true := by
  obtain ⟨_, _, _, _, hm⟩ := h.merges he
  rw [hm]
  rfl

theorem MonotoneOperations.adds {ops : List (PreparedOperation V)} (h : MonotoneOperations ops) {e : Effect V}
    (he : Disclosed ops e) : Adds e.write :=
  (Effect.adds_iff (h.merges he).1).mpr (h.isMergeItems he)

/-- **Nothing is lost under monotone protection.** Whatever effects of such
operations are executed, in part, again and in any order, also among writes
of others that keep what the library holds: what it held at any time stays,
and the units of every effect executed are complete in the end. Of effects
alone, fewer leave less, and the same leave the same. -/
theorem monotone_converges (ops : List (PreparedOperation V)) (hops : MonotoneOperations ops)
    (library : NativeLibrary V) :
    (∀ before after : List (NativeLibrary V → NativeLibrary V),
      (∀ w ∈ before ++ after, (∃ e, Disclosed ops e ∧ w = e.write) ∨ Grows w) →
      run id before library ≤ run id (before ++ after) library ∧
      ∀ e domain baseline additions, Disclosed ops e → e.change = .mergeItems domain baseline additions →
        e.write ∈ before ++ after → ∀ u ∈ additions, u ∈ (run id (before ++ after) library e.scope).completed) ∧
    ∀ done done' : List (Effect V), (∀ e ∈ done, Disclosed ops e) →
      (done' ⊆ done → run Effect.write done' library ≤ run Effect.write done library) ∧
      ((∀ e, e ∈ done ↔ e ∈ done') → run Effect.write done library = run Effect.write done' library) := by
  have hgrows : ∀ w : NativeLibrary V → NativeLibrary V, (∃ e, Disclosed ops e ∧ w = e.write) ∨ Grows w → Grows w := by
    intro w hw
    rcases hw with ⟨e, he, rfl⟩ | hw
    · exact (hops.adds he).grows
    · exact hw
  refine ⟨fun before after hwrites => ⟨?_, fun e domain baseline additions he hchange hmem u hu => ?_⟩,
    fun done done' hdone => ?_⟩
  · rw [run_append]
    exact run_grows fun w hw => hgrows w (hwrites w (List.mem_append_right _ hw))
  · obtain ⟨pre, post, hsplit⟩ := List.append_of_mem hmem
    rw [hsplit] at hwrites ⊢
    rw [run_append, run_cons]
    have hkept : e.write (run id pre library) ≤ run id post (e.write (run id pre library)) :=
      run_grows fun w hw => hgrows w (hwrites w (List.mem_append_right _ (List.mem_cons_of_mem _ hw)))
    have hdone : u ∈ (e.write (run id pre library) e.scope).completed := by
      rw [Effect.write, Function.update_self, hchange]
      exact .inr hu
    exact (hkept e.scope).1 hdone
  · have hcomm : Writes.Commute Effect.write done := fun e he e' he' =>
      Effect.write_comm (hops.isMergeItems (hdone e he)) (hops.isMergeItems (hdone e' he'))
    have hadds : ∀ e ∈ done, Adds e.write := fun e he => hops.adds (hdone e he)
    exact ⟨run_le hcomm hadds, run_eq hcomm hadds⟩

/-- Of two operations, one executed twice. -/
theorem mergeOperations_converge :
    run Effect.write [mergeEffect .sample, mergeEffect secondIdentity, mergeEffect .sample] (fun _ => .empty) =
      run Effect.write [mergeEffect secondIdentity, mergeEffect .sample] (fun _ => .empty) := by
  have hops : MonotoneOperations [mergeOperation .sample [], mergeOperation secondIdentity []] := by
    intro op hop
    rcases List.mem_pair.mp hop with rfl | rfl <;> exact ⟨rfl, mergeBehavior, by decide +kernel⟩
  refine ((monotone_converges _ hops _).2 _ _ fun e he => ?_).2 fun e => ?_
  · have he : e = mergeEffect .sample ∨ e = mergeEffect secondIdentity := by simpa [or_comm, or_left_comm] using he
    rcases he with rfl | rfl
    · exact ⟨mergeOperation .sample [], by simp, List.mem_cons_self⟩
    · exact ⟨mergeOperation secondIdentity [], by simp, List.mem_cons_self⟩
  · simp [or_comm, or_left_comm]

end ProviderSdk
