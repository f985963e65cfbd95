/-
From a discovered field to a report on record.

Discovery, preparation, the wire and the exchange of reports each have checks
of their own. Here they are put together. What is discovered writable gets
past all of them: an operation on it can be prepared, sent and reported on
(`discovered_completes`). And what is on record of an operation answers what
it was prepared for, and concerns nothing else (`Exchange.run_answers`).
-/
import ProviderSdk.Exchange
import ProviderSdk.Paging
import ProviderSdk.Writability

namespace ProviderSdk

open Checks Codec

variable {V : Type} [SerdeJson V] {behavior : Behavior} {operation : PreparedOperation V} {attempt : Identity}

/-! ## An operation that gets through -/

/-- An operation without JSON values but its parameters survives the wire. -/
theorem PreparedOperation.Valid.decoded {op : PreparedOperation V} (hv : op.Valid behavior) (hc : CompactJson V)
    (hjson : ∀ e ∈ op.effects, e.change.json = [])
    (hread : SerdeJson.fromSlice (SerdeJson.toString op.command.parameters) = some op.command.parameters) :
    decodePrepared behavior op.into = .ok op := by
  have hnone : op.json = [op.command.parameters] := by
    rw [PreparedOperation.json, List.flatMap_eq_nil_iff.mpr hjson]
  refine (hv.returns hc fun v hm => ?_).ok fun e he v hm => ?_
  · rw [hnone] at hm
    rw [List.mem_singleton.mp hm]
    exact hread
  · rw [hjson e he] at hm
    cases hm

omit [SerdeJson V] in
/-- Any report on the scope of an operation's only effect is one on the
operation. -/
theorem reported_single {op : PreparedOperation V} {e : Effect V} (he : op.effects = [e]) (attempt : Identity)
    {lifecycle : RequestLifecycle} (hl : lifecycle ≠ .notDispatched) (knowledge : EffectKnowledge)
    (satisfaction : Satisfaction) :
    Reported op attempt ⟨op.identity, attempt, lifecycle, [⟨e.scope, knowledge⟩], satisfaction⟩ := by
  refine ⟨AttemptOutcome.validateFor_ok.mpr ⟨rfl, rfl, List.nodup_singleton _, fun s => ?_, fun h => absurd h hl⟩, hl⟩
  rw [he]
  exact .rfl

/-- An operation for a scope gets through: it is decoded from a message and
passes `validate_for`, and every report on a dispatched request of it can be
brought on record. -/
def EffectScope.Completes (V : Type) [SerdeJson V] (behavior : Behavior) (identity attempt : Identity)
    (scope : EffectScope) : Prop :=
  ∃ (message : V1.PreparedCompletionOperation) (op : PreparedOperation V),
    decodePrepared behavior message = .ok op ∧ op.validateFor behavior identity scope.account [scope] = .ok () ∧
    ∀ lifecycle knowledge satisfaction, lifecycle ≠ .notDispatched →
      ∃ s, Exchange.Run behavior op attempt .start s ∧
        s.record = some ⟨identity, attempt, lifecycle, [⟨scope, knowledge⟩], satisfaction⟩

theorem Library.Valid.completes {library : Library} {account : Identity} (hl : library.Valid account)
    (hc : CompactJson V) (hs : ScalarJson V) (hn : NullJson V) {f : Field} (hm : f ∈ library.fields)
    (hw : f.writable = true) (subject identity attempt : Identity) :
    EffectScope.Completes V library.behavior identity attempt ⟨account, subject, f.field⟩ := by
  have hf := hl.fields f hm
  obtain ⟨unit, hunit⟩ := hf.nonempty
  obtain ⟨null, htext, hread⟩ := hn
  obtain ⟨op, heffects, hparameters, hop⟩ := hl.behavior.prepares_null hc hs identity ⟨account, subject, f.field⟩
    (hf.writable hw) (.ofUnit unit) (hf.units unit hunit) htext
  obtain ⟨hv, ⟨rfl, _⟩, _⟩ := PreparedOperation.validateFor_ok.mp hop
  have hdecode : decodePrepared library.behavior op.into = .ok op := by
    refine hv.decoded hc (fun e he => ?_) ?_
    · rw [heffects] at he
      rw [List.mem_singleton.mp he]
      rfl
    · rw [hparameters, hc.toString, htext]
      exact hread
  refine ⟨op.into, op, hdecode, hop, fun lifecycle knowledge satisfaction hdispatched => ?_⟩
  have hreported := reported_single heffects attempt hdispatched knowledge satisfaction
  exact Exchange.Run.records hdecode .refl (validateAttemptOutcome_none.mpr hreported)

/-! ## What is on record -/

omit [SerdeJson V] in
/-- What a report on an operation that was prepared for `scopes` says. -/
structure AttemptOutcome.Covers (behavior : Behavior) (operation : PreparedOperation V)
    (identity attempt account : Identity) (scopes : List EffectScope) (r : AttemptOutcome) : Prop where
  identified : r.operation = identity ∧ r.attempt = attempt
  /-- Each scope asked for has one entry. -/
  requested : ∀ s ∈ scopes, ∃ k, r.effects.filter (·.scope = s) = [⟨s, k⟩]
  /-- So has each effect the operation discloses, and there are no others. -/
  disclosed : (r.effects.map (·.scope)).Perm (operation.effects.map (·.scope))
  declared : ∀ e ∈ r.effects, e.scope.account = account ∧
    ∃ c ∈ behavior.operations, c.operationClass = operation.operationClass ∧ e.scope.field ∈ c.effectFields

theorem Reported.covers {r : AttemptOutcome} {identity account : Identity} {scopes : List EffectScope}
    (hr : Reported operation attempt r) (hfor : operation.validateFor behavior identity account scopes = .ok ()) :
    r.Covers behavior operation identity attempt account scopes := by
  obtain ⟨hv, ⟨hid, haccount⟩, ⟨_, hscopes⟩, _⟩ := PreparedOperation.validateFor_ok.mp hfor
  obtain ⟨ho, ha, hd, hmem, _⟩ := AttemptOutcome.validateFor_ok.mp hr.valid
  refine ⟨⟨ho.trans hid, ha⟩, fun s hs => ?_, ?_, fun e he => ?_⟩
  · obtain ⟨e, he, hes⟩ := List.mem_map.mp ((hmem s).mpr (hscopes s hs).2)
    refine ⟨e.knowledge, (filter_key hd).mpr ⟨?_, rfl⟩⟩
    rw [← hes]
    exact he
  · exact (List.perm_ext_iff_of_nodup hd hv.scopes).mpr hmem
  · -- the effect this entry is about
    obtain ⟨effect, hm, hs⟩ := List.mem_map.mp ((hmem e.scope).mp (List.mem_map_of_mem he))
    obtain ⟨c, hc, hpermitted⟩ := hv.capability
    obtain ⟨hdeclared, hclass⟩ := (filter_key hv.declared.classes).mp hc
    rw [← hs]
    exact ⟨haccount effect hm, c, hdeclared, hclass, hpermitted.fields effect hm⟩

/-- **The record answers the request.** In every state an exchange about a
prepared operation reaches, whatever messages are lost, repeated, overtaken
or made up, a report on record has one entry for each requested scope and for
each effect disclosed, and no other, and every entry is about the account and
a field that the operation's class declares. -/
theorem Exchange.run_answers {identity account : Identity} {scopes : List EffectScope} {s : Exchange}
    (hfor : operation.validateFor behavior identity account scopes = .ok ())
    (hs : Run behavior operation attempt start s) :
    ∀ r, s.record = some r → r.Covers behavior operation identity attempt account scopes := by
  obtain ⟨hsound, _⟩ := hs.safe start_sound
  exact fun r hr => (hsound.reported r hr).covers hfor

/-- The report that the only effect was applied. -/
theorem mergeLibrary_answers : ∃ (op : PreparedOperation SampleJson) (s : Exchange) (r : AttemptOutcome),
    s.record = some r ∧
      r.Covers mergeLibrary.behavior op otherIdentity .sample .sample [⟨.sample, otherIdentity, .sample⟩] := by
  have hvalid : mergeLibrary.validate .sample = .ok () := rfl
  have hl := Library.validate_ok.mp hvalid
  obtain ⟨_, op, _, hop, hruns⟩ := hl.completes SampleJson.compact SampleJson.scalars SampleJson.null
    (List.mem_singleton_self _) rfl otherIdentity otherIdentity .sample
  obtain ⟨s, hrun, hr⟩ := hruns (.terminal .sample .sample) .applied .satisfied nofun
  exact ⟨op, s, _, hr, Exchange.run_answers hop hrun _ hr⟩

/-! ## From discovery to the record -/

/-- The library of an accepted page is accepted by itself. -/
theorem validateCompletionLibrary_of_page [ProstDiscovery] {p : Page} {library : V1.CompletionLibrary}
    {account : Identity} (hl : Library.tryFrom library = .ok p.library) (hv : p.library.Valid account) :
    validateCompletionLibrary library account = .ok p.library.behavior :=
  validateCompletionLibrary_ok.mpr ⟨p.library, hl, hv, rfl⟩

theorem Subject.tryFrom_identity {w : V1.CompletionSubject} {s : Subject} (h : Subject.tryFrom w = .ok s) :
    w.identity = some s.identity.into := by
  simp only [tryFrom, bind_ok, required_ok, pure_ok] at h
  obtain ⟨wi, hwi, i, hi, _, _, _, _, rfl⟩ := h
  rw [hwi, Identity.tryFrom_restores.of_ok hi]

/-- **What is discovered writable can be written.** The library of a page
that is accepted is accepted by itself, and wherever a subject of the page
lets a field be written, some operation for just that gets through
preparation, the wire and reporting. -/
theorem discovered_completes [ProstDiscovery] (hc : CompactJson V) (hs : ScalarJson V) (hn : NullJson V)
    {page : V1.CompletionSubjectPage} {request : V1.DiscoverCompletionSubjectsRequest} {account : Identity}
    (h : validateCompletionSubjectPage page request account = .ok ()) :
    ∃ library behavior, page.library = some library ∧ validateCompletionLibrary library account = .ok behavior ∧
      ∀ d ∈ page.subjects, ∀ f ∈ d.fields, f.writable = true →
        ∃ (subject : V1.CompletionSubject) (scope : EffectScope), d.subject = some subject ∧
          scope.account = account ∧ subject.identity = some scope.subject.into ∧ scope.field.value = f.field ∧
          ∀ identity attempt : Identity, scope.Completes V behavior identity attempt := by
  obtain ⟨_, _, p, hsent, haccepted⟩ := validateCompletionSubjectPage_ok.mp h
  obtain ⟨⟨library, hlibrary, hl⟩, hsubjects, _⟩ := hsent
  refine ⟨library, p.library.behavior, hlibrary, validateCompletionLibrary_of_page hl haccepted.library, ?_⟩
  intro d hd f hf hw
  obtain ⟨d', hd', hdecoded⟩ := forall₂_mem_right (mapM_ok.mp hsubjects).flip hd
  obtain ⟨⟨subject, hsubject, hs'⟩, hfields⟩ := Descriptor.tryFrom_ok.mp hdecoded
  obtain ⟨f', hf', hfield⟩ := forall₂_mem_right (mapM_ok.mp hfields).flip hf
  obtain ⟨hname, _, _, _, hwritable⟩ := Field.tryFrom_ok.mp hfield
  -- a subject's field is one that the library declares
  obtain ⟨declared, hm, hnarrow⟩ := (haccepted.subjects d' hd').narrows f' hf'
  have hw' : declared.writable = true := hnarrow.writable (hwritable.trans hw)
  refine ⟨subject, ⟨account, d'.subject.identity, declared.field⟩, hsubject, rfl, Subject.tryFrom_identity hs', ?_, ?_⟩
  · rw [hnarrow.field]
    exact hname
  · exact haccepted.library.completes hc hs hn hm hw' d'.subject.identity

/-- A page whose only subject lets the only field be written. -/
def writablePage : V1.CompletionSubjectPage where
  library := some mergeLibrary.spell
  subjects :=
    [⟨some ⟨some Identity.sample.into, [], Name.sample.value, "Edition"⟩, mergeLibrary.fields.map Field.spell⟩]
  nextCursor := none

theorem writablePage_completes : ∃ library behavior, writablePage.library = some library ∧
    validateCompletionLibrary library .sample = .ok behavior ∧
      EffectScope.Completes SampleJson behavior otherIdentity .sample ⟨.sample, .sample, .sample⟩ := by
  have hpage : validateCompletionSubjectPage writablePage ⟨some pagingContext, 1, none⟩ .sample = .ok () := by
    decide +kernel
  obtain ⟨library, behavior, hl, hb, hfields⟩ :=
    discovered_completes SampleJson.compact SampleJson.scalars SampleJson.null hpage
  obtain ⟨subject, scope, hsubject, haccount, hidentity, hname, hscope⟩ :=
    hfields _ (List.mem_singleton_self _) _ (List.mem_singleton_self _) rfl
  cases hsubject
  refine ⟨library, behavior, hl, hb, ?_⟩
  have hsubject : scope.subject = .sample := by
    have h := Identity.tryFrom_into scope.subject
    rw [← Option.some.inj hidentity, Identity.tryFrom_into] at h
    exact (Except.ok.inj h).symm
  have hs : scope = ⟨.sample, .sample, .sample⟩ :=
    EffectScope.eq_of_parts haccount hsubject (Name.eq_of_value hname)
  rw [← hs]
  exact hscope otherIdentity .sample

end ProviderSdk
