import HiveMind.Prompts.Registrations

/-!
# Champions under registrations

Reading a champion looks at prompts, manifests, records and events that a registration leaves where
they are. So what was read before it is read after it, with one exception: a promotion is checked
against the last registration that fits it, and the new record may be that.

* **`champion_kept_iff`**: a registration disturbs a champion exactly when its record is written,
  fits the admission of the champion, comes after all others that do, and differs from the one that
  was the last in its author or its experiment.
-/

open Raise

namespace HiveMind.Prompts

open HiveMind.Evidence (LedgerRow LedgerError EventTable AppendArgs)
open HiveMind.Missions (Role)

section Reading

variable [Hash256] {s s' : Registry} {digest runId : String}

/-! ## What is read again -/

omit [Hash256] in
theorem readRecords_eq_ok {folder : Folder (Option Record)} {records : List Record} :
    Registry.readRecords folder = .ok records ↔ folder.contents = records.map some := by
  rw [Registry.readRecords, mapM_eq_ok]
  generalize folder.contents = contents
  constructor
  · intro h
    induction h with
    | nil => rfl
    | @cons content record _ _ hfirst _ ih =>
      cases content with
      | none => exact nomatch hfirst
      | some _ => rw [ih, List.map_cons, Except.ok.inj hfirst]
  · rintro rfl
    induction records with
    | nil => exact .nil
    | cons record records ih => exact .cons rfl ih

omit [Hash256] in
/-- A new record comes between those with smaller and those with larger names. -/
theorem readRecords_add {folder : Folder (Option Record)} {records : List Record} {name : String}
    (record : Record) (h : Registry.readRecords folder = .ok records)
    (hname : name ∉ folder.names) :
    ∃ first last, records = first ++ last ∧
      (Folder.after name folder.files).map Prod.snd = last.map some ∧
      Registry.readRecords (folder.add name (some record)) = .ok (first ++ record :: last) := by
  have hcontents := readRecords_eq_ok.mp h
  rw [Folder.contents, ← Folder.before_append_after hname, List.map_append] at hcontents
  obtain ⟨first, last, hrecords, hfirst, hlast⟩ := List.append_eq_map_iff.mp hcontents
  refine ⟨first, last, hrecords, hlast.symm, readRecords_eq_ok.mpr ?_⟩
  rw [Folder.contents, Folder.add, List.map_append, List.map_cons, ← hfirst, ← hlast,
    List.map_append, List.map_cons]

theorem Grows.artifact (h : Grows s s') {file : Option String}
    (hfile : s.artifact digest = .ok (some file)) : s'.artifact digest = .ok (some file) := by
  rw [Registry.artifact] at hfile ⊢
  split at hfile
  · next hdigest =>
    rw [if_pos hdigest]
    exact congrArg Except.ok (h.artifacts digest file (Except.ok.inj hfile))
  · exact nomatch hfile

theorem Grows.read (h : Grows s s') : Carries (s.read digest) (s'.read digest) := by
  intro content hcontent
  rw [Registry.read, bind_eq_ok] at hcontent ⊢
  obtain ⟨file, hfile, hrest⟩ := hcontent
  cases file with
  | none => exact nomatch hrest
  | some file => exact ⟨some file, h.artifact hfile, hrest⟩

theorem Grows.readPointers (h : Grows s s') : s'.readPointers = s.readPointers := by
  rw [Registry.readPointers, Registry.readPointers, h.pointerFile]

theorem Grows.ensureKnownCommit (h : Grows s s') : s'.ensureKnownCommit = s.ensureKnownCommit := by
  rw [Registry.ensureKnownCommit, Registry.ensureKnownCommit, h.unknownCommit]

theorem Grows.readManifest (h : Grows s s') : readManifest s' digest = readManifest s digest := by
  rw [Prompts.readManifest, Prompts.readManifest, admissionFile, admissionFile, h.admissions]

/-- The events of a run that was read are read again, perhaps with that of a registration as the
last. -/
theorem Grows.ledgerEvents (h : Grows s s') {events : List (LedgerRow × Json)}
    (hevents : s.ledgerEvents runId = .ok events) :
    ∃ events', s'.ledgerEvents runId = .ok events' ∧
      (events' = events ∨ ∃ event, event.1.eventType = "prompt.registered" ∧
        events' = events ++ [event] ∧ ∀ other ∈ events, other.1.sequence < event.1.sequence) := by
  rw [Registry.ledgerEvents, mapError_eq_ok] at hevents
  simp only [Registry.ledgerEvents, mapError_eq_ok]
  rcases h.ledger with hledger | ⟨args, htype, hledger⟩
  · exact ⟨events, hledger ▸ hevents, .inl rfl⟩
  · rw [hledger]
    obtain ⟨events', hevents', hsame | ⟨row, hrow, hmore, hlarger⟩⟩ :=
      Evidence.events_appendEvent args hevents
    · exact ⟨events', hevents', .inl hsame⟩
    · exact ⟨events', hevents', .inr ⟨_, hrow.trans htype, hmore, hlarger⟩⟩

/-- Whether an event of another type is there does not change. -/
theorem Grows.any_ledgerEvents (h : Grows s s') {p : LedgerRow × Json → Bool}
    (hp : ∀ event, event.1.eventType = "prompt.registered" → p event = false)
    {events : List (LedgerRow × Json)} (hevents : s.ledgerEvents runId = .ok events) :
    ∃ events', s'.ledgerEvents runId = .ok events' ∧ events'.any p = events.any p := by
  obtain ⟨events', hevents', rfl | ⟨event, htype, rfl, -⟩⟩ := h.ledgerEvents hevents
  · exact ⟨events', hevents', rfl⟩
  · refine ⟨_, hevents', ?_⟩
    rw [List.any_append, List.any_cons, hp event htype, List.any_nil, Bool.or_false,
      Bool.or_false]

/-- The records of files with larger names. -/
def laterRecords (s : Registry) (name : String) : List Record :=
  (Folder.after name s.lineage.files).filterMap Prod.snd

/-- What is there stays, and `added` comes into the lineage, before the records of the files with
names that are larger than `name`. -/
structure Registered (s s' : Registry) (name : String) (added : List Record) : Prop
    extends Grows s s' where
  lineage : ∀ records, Registry.readRecords s.lineage = .ok records →
    ∃ first last, records = first ++ last ∧ (added ≠ [] → last = laterRecords s name) ∧
      Registry.readRecords s'.lineage = .ok (first ++ added ++ last)
  kind : ∀ record ∈ added, record.get "kind" = .str "registration"

variable {name : String} {added : List Record}

theorem Registered.lineageOf (h : Registered s s' name added) {records : List Record}
    (hrecords : s.lineageOf digest = .ok records) :
    ∃ first last, records = first ++ last ∧
      (added ≠ [] → last = (laterRecords s name).filter (·.get "artifact_digest" = .str digest)) ∧
      s'.lineageOf digest = .ok (first ++
        added.filter (·.get "artifact_digest" = .str digest) ++ last) := by
  obtain ⟨all, hall, hfilter⟩ := bind_eq_ok.mp hrecords
  obtain ⟨first, last, rfl, hlast, hread⟩ := h.lineage all hall
  rw [pure_eq_ok, List.filter_append] at hfilter
  refine ⟨_, _, hfilter, fun hadded ↦ by rw [hlast hadded], ?_⟩
  rw [Registry.lineageOf, hread, ok_bind, List.filter_append, List.filter_append]
  rfl

/-- Records that are not registrations are the same as before. -/
theorem Registered.filter_lineageOf (h : Registered s s' name added) {p : Record → Bool}
    (hp : ∀ record, record.get "kind" = .str "registration" → p record = false)
    {records : List Record} (hrecords : s.lineageOf digest = .ok records) :
    ∃ records', s'.lineageOf digest = .ok records' ∧ records'.filter p = records.filter p := by
  obtain ⟨first, last, rfl, -, hread⟩ := h.lineageOf hrecords
  refine ⟨_, hread, ?_⟩
  have hnone : (added.filter (·.get "artifact_digest" = .str digest)).filter p = [] :=
    List.filter_eq_nil_iff.mpr fun record hrecord ↦ by
      rw [hp record (h.kind record (List.mem_of_mem_filter hrecord))]
      exact Bool.false_ne_true
  rw [List.filter_append, List.filter_append, hnone, List.append_nil, List.filter_append]

/-- An admission that is prepared stays prepared, and no other becomes so. -/
theorem Grows.isPrepared (h : Grows s s') {m : Manifest} {events : List (LedgerRow × Json)}
    (hevents : s.ledgerEvents runId = .ok events) :
    ∃ events', s'.ledgerEvents runId = .ok events' ∧
      isPrepared digest m events' = isPrepared digest m events :=
  h.any_ledgerEvents (fun event htype ↦ by simp [htype]) hevents

/-- A prompt from generation zero resolves as before. -/
theorem Registered.bootstrapPromotionResolves (h : Registered s s' name added) {role : Role} :
    Carries (bootstrapPromotionResolves s role digest)
      (bootstrapPromotionResolves s' role digest) := by
  intro found hfound
  rw [Prompts.bootstrapPromotionResolves, bind_eq_ok] at hfound ⊢
  obtain ⟨records, hrecords, hany⟩ := hfound
  obtain ⟨records', hrecords', hfilter⟩ := h.filter_lineageOf
    (p := fun record ↦ record.get "kind" = .str "promotion" && record.get "role" = .str role.value)
    (fun record hkind ↦ by simp [hkind]) hrecords
  refine ⟨records', hrecords', ?_⟩
  simp only [hfilter]
  refine carries_anyM (fun record _ ↦ ?_) found hany
  split
  · exact carries_refl _
  · split
    · exact carries_refl _
    · refine h.read.bind fun content _ ↦ ?_
      split
      · exact carries_refl _
      · intro b hb
        obtain ⟨events, hevents, hb⟩ := bind_eq_ok.mp hb
        obtain ⟨events', hevents', hsame⟩ := h.any_ledgerEvents
          (p := fun event ↦ event.1.eventType = "prompt.promoted" &&
            event.2 = record.dict.toJson) (fun event htype ↦ by simp [htype]) hevents
        rw [hevents', ok_bind, hsame]
        exact hb

/-- The admission of a prompt from generation zero is checked against the registration that its
manifest holds. -/
theorem Registered.committedBootstrap (h : Registered s s' name added) {m : BootstrapManifest}
    {pointers : Pointers} : Carries (committedBootstrap s digest m pointers)
      (committedBootstrap s' digest m pointers) := by
  refine carries_guard fun _ ↦ h.read.bind fun content _ ↦ ?_
  refine (carries_refl _).bind fun role _ ↦ carries_guard fun _ ↦ ?_
  intro u hu
  obtain ⟨records, hrecords, hu⟩ := bind_eq_ok.mp hu
  obtain ⟨first, last, rfl, -, hrecords'⟩ := h.lineageOf hrecords
  obtain ⟨hmem, hu⟩ := guard_eq_ok.mp hu
  refine bind_eq_ok.mpr ⟨_, hrecords', guard_eq_ok.mpr ⟨?_, ?_⟩⟩
  · intro hnot
    simp only [List.mem_append, not_or] at hmem hnot
    exact hmem ⟨hnot.1.1, hnot.2⟩
  · obtain ⟨hfields, hu⟩ := guard_eq_ok.mp hu
    obtain ⟨events, hevents, hprepared⟩ := bind_eq_ok.mp hu
    obtain ⟨events', hevents', hsame⟩ := h.isPrepared hevents
    refine guard_eq_ok.mpr ⟨hfields, bind_eq_ok.mpr ⟨events', hevents', ?_⟩⟩
    rw [hsame]
    exact hprepared

/-- The evidence of a decision resolves as before. -/
theorem Grows.resolveEventEvidence (h : Grows s s') {out : Outside} {payload : Json}
    {promotedBy : String} {admittedAt : Option String} :
    Carries (resolveEventEvidence out s payload promotedBy admittedAt)
      (resolveEventEvidence out s' payload promotedBy admittedAt) := by
  have hartifact : ∀ digest, Carries (checkArtifact s digest) (checkArtifact s' digest) := by
    intro digest u hu
    obtain ⟨file, hfile, hrest⟩ := bind_eq_ok.mp hu
    cases file with
    | none => exact nomatch hrest
    | some file => exact bind_eq_ok.mpr ⟨some file, h.artifact hfile, hrest⟩
  have hartifacts : ∀ parent : Option String,
      Carries (parent.forM (checkArtifact s)) (parent.forM (checkArtifact s')) := by
    rintro (_ | parent)
    · exact carries_refl _
    · exact hartifact parent
  refine carries_guard fun _ ↦ (carries_refl _).bind fun subject _ ↦
    (carries_refl _).bind fun reference _ ↦ carries_guard fun _ ↦ carries_guard fun _ ↦
    (carries_refl _).bind fun _ _ ↦ (carries_refl _).bind fun _ _ ↦
    (carries_refl _).bind fun _ _ ↦ ?_
  split
  · exact carries_refl _
  · exact (carries_refl _).bind fun authorization _ ↦ (carries_refl _).bind fun _ _ ↦
      (hartifact _).bind fun _ _ ↦ (hartifacts _).bind fun _ _ ↦ carries_refl _

/-! ## The registration of a decision -/

omit [Hash256] in
/-- A decision is checked against the author and the experiment of the registration. -/
theorem registration_of_validateDecision {role experimentId : String}
    {expectedCurrent : Option String} {registration : Record} {event : LedgerRow × Json}
    (h : validateDecision role digest experimentId expectedCurrent registration event = .ok ()) :
    registration.get "created_by" = field event.2 "registration_author" ∧
      registration.get "experiment_id" = .str experimentId := by
  simp only [validateDecision, guard_eq_ok, bind_eq_ok] at h
  obtain ⟨-, -, _, hfields, hbound, -⟩ := h
  simp only [not_or, not_not] at hbound
  have hauthor := forM_eq_ok.mp hfields ("registration_author", registration.get "created_by")
    (by simp [expectedFields])
  exact ⟨(not_not.mp (check_eq_ok.mp hauthor)).symm, hbound.1⟩

omit [Hash256] in
/-- A decision stands with another registration that fits the promotion if this has the same author
and experiment. -/
theorem validateDecision_of_same {role experimentId promotedBy : String}
    {expectedCurrent : Option String} {current registration : Record} {event : LedgerRow × Json}
    (h : validateDecision role digest experimentId expectedCurrent current event = .ok ())
    (hfits : isRegistration role experimentId expectedCurrent promotedBy registration = true)
    (hauthor : registration.get "created_by" = current.get "created_by")
    (hexperiment : registration.get "experiment_id" = .str experimentId) :
    validateDecision role digest experimentId expectedCurrent registration event = .ok () := by
  simp only [isRegistration, Bool.and_eq_true, decide_eq_true_eq] at hfits
  simp only [validateDecision, guard_eq_ok, bind_eq_ok, expectedFields] at h ⊢
  obtain ⟨hbinding, hpayload, u, hfields, hbound, hrest⟩ := h
  rw [hauthor]
  refine ⟨hbinding, hpayload, u, hfields, ?_, hrest⟩
  simp only [not_or, not_not]
  exact ⟨hexperiment, hfits.1.1.2, hfits.1.2⟩

omit [Hash256] in
/-- Whether a record is a registration that the promotion can be made from. -/
def PromotionManifest.fits (m : PromotionManifest) (record : Record) : Bool :=
  record.get "artifact_digest" = .str m.candidateDigest &&
    isRegistration m.role m.experimentId m.parentDigest m.promoterId record

omit [Hash256] in
/-- The registration that the promotion is checked against. -/
def PromotionManifest.registration (m : PromotionManifest) (s : Registry) :
    Except RegistryError Record :=
  promotionRegistration s m.role m.candidateDigest m.experimentId m.parentDigest m.promoterId

/-- A record with the name is the last registration that fits the promotion. -/
def Overshadows (s : Registry) (m : PromotionManifest) (name : String) (record : Record) : Prop :=
  m.fits record = true ∧ ∀ later ∈ laterRecords s name, m.fits later = false

variable {m : PromotionManifest} {current record : Record}

omit [Hash256] in
theorem registration_eq_ok :
    m.registration s = .ok current ↔ ∃ records, s.lineageOf m.candidateDigest = .ok records ∧
      (records.filter (isRegistration m.role m.experimentId m.parentDigest m.promoterId)).getLast? =
        some current := by
  rw [PromotionManifest.registration, promotionRegistration, bind_eq_ok]
  refine exists_congr fun records ↦ and_congr_right fun _ ↦ ?_
  dsimp only
  cases (records.filter (isRegistration m.role m.experimentId m.parentDigest
      m.promoterId)).getLast? with
  | none => exact ⟨nofun, nofun⟩
  | some last => rw [pure_eq_ok, Option.some.injEq, eq_comm]

omit [Hash256] in
theorem filter_filter_fits (records : List Record) :
    (records.filter (·.get "artifact_digest" = .str m.candidateDigest)).filter
      (isRegistration m.role m.experimentId m.parentDigest m.promoterId) =
        records.filter m.fits := by
  rw [List.filter_filter]
  exact List.filter_congr fun record _ ↦ Bool.and_comm _ _

omit [Hash256] in
theorem fits_of_registration (h : m.registration s = .ok current) : m.fits current = true := by
  obtain ⟨records, hrecords, hlast⟩ := registration_eq_ok.mp h
  obtain ⟨all, -, hfilter⟩ := bind_eq_ok.mp hrecords
  rw [pure_eq_ok.mp hfilter, filter_filter_fits] at hlast
  exact (List.mem_filter.mp (List.mem_of_getLast? hlast)).2

/-- Without a record that comes last, the registration stays the same. -/
theorem Registered.registration_of_not (h : Registered s s' name added)
    (hcurrent : m.registration s = .ok current)
    (hnot : ∀ record ∈ added, ¬Overshadows s m name record) :
    m.registration s' = .ok current := by
  obtain ⟨records, hrecords, hgetLast⟩ := registration_eq_ok.mp hcurrent
  obtain ⟨first, last, rfl, hlast, hrecords'⟩ := h.lineageOf hrecords
  refine registration_eq_ok.mpr ⟨_, hrecords', ?_⟩
  rw [List.filter_append, List.filter_append, filter_filter_fits]
  rw [List.filter_append] at hgetLast
  by_cases hadded : added.filter m.fits = []
  · rwa [hadded, List.append_nil]
  -- a record that was added fits, so one of those after it does too
  · obtain ⟨record, hrecord⟩ := List.exists_mem_of_ne_nil _ hadded
    obtain ⟨hmem, hfits⟩ := List.mem_filter.mp hrecord
    have hlater : (laterRecords s name).filter m.fits ≠ [] := by
      intro hnil
      refine hnot record hmem ⟨hfits, fun later hlater ↦ ?_⟩
      have := List.filter_eq_nil_iff.mp hnil later hlater
      exact Bool.not_eq_true _ ▸ this
    have hne : last.filter (isRegistration m.role m.experimentId m.parentDigest m.promoterId) ≠ [] :=
      by rwa [hlast (List.ne_nil_of_mem hmem), filter_filter_fits]
    rw [List.getLast?_append_of_ne_nil _ hne] at hgetLast ⊢
    exact hgetLast

/-- A record that comes last is the registration from then on. -/
theorem Registered.registration_of_overshadows (h : Registered s s' name [record])
    (hcurrent : m.registration s = .ok current) (hlast : Overshadows s m name record) :
    m.registration s' = .ok record := by
  obtain ⟨records, hrecords, -⟩ := registration_eq_ok.mp hcurrent
  obtain ⟨first, last, rfl, hlater, hrecords'⟩ := h.lineageOf hrecords
  refine registration_eq_ok.mpr ⟨_, hrecords', ?_⟩
  have hnone : last.filter (isRegistration m.role m.experimentId m.parentDigest m.promoterId) = [] := by
    rw [hlater (List.cons_ne_nil _ _), filter_filter_fits, List.filter_eq_nil_iff]
    intro later hmem
    rw [hlast.2 later hmem]
    exact Bool.false_ne_true
  rw [List.filter_append, List.filter_append, filter_filter_fits, hnone, List.append_nil,
    List.filter_cons, if_pos hlast.1, List.filter_nil, List.getLast?_concat]

/-! ## Promotions -/

/-- An event that was found by its number is found again. -/
theorem Grows.filter_sequence (h : Grows s s') {events : List (LedgerRow × Json)} {sequence : ℤ}
    {event : LedgerRow × Json} (hevents : s.ledgerEvents runId = .ok events)
    (hfound : events.filter (·.1.sequence = sequence) = [event]) :
    ∃ events', s'.ledgerEvents runId = .ok events' ∧
      events'.filter (·.1.sequence = sequence) = [event] := by
  obtain ⟨events', hevents', rfl | ⟨new, -, rfl, hlarger⟩⟩ := h.ledgerEvents hevents
  · exact ⟨events', hevents', hfound⟩
  · refine ⟨_, hevents', ?_⟩
    obtain ⟨hmem, hsequence⟩ := List.mem_filter.mp (hfound ▸ List.mem_singleton_self event)
    have hlt := hlarger event hmem
    have hother : ¬decide (new.1.sequence = sequence) = true := by
      rw [decide_eq_true_eq] at hsequence ⊢
      omega
    rw [List.filter_append, hfound, List.filter_cons, if_neg hother, List.filter_nil,
      List.append_nil]

/-- The decision that a promotion was validated against. -/
theorem validateDecisionEvent_eq_ok {role experimentId : String}
    {expectedCurrent : Option String} {registration : Record} {sequence : Option ℤ}
    {event : LedgerRow × Json} :
    validateDecisionEvent s role digest experimentId expectedCurrent registration sequence =
        .ok event ↔
      ∃ number events, sequence.filter (1 ≤ ·) = some number ∧
        s.ledgerEvents experimentId = .ok events ∧
        events.filter (·.1.sequence = number) = [event] ∧
        validateDecision role digest experimentId expectedCurrent registration event = .ok () := by
  rw [validateDecisionEvent]
  cases hsequence : sequence.filter (1 ≤ ·) with
  | none => exact ⟨nofun, fun ⟨_, _, h, _⟩ ↦ (nomatch h)⟩
  | some number =>
    simp only [bind_eq_ok, Option.some.injEq]
    constructor
    · rintro ⟨events, hevents, hrest⟩
      split at hrest
      · next found hfound =>
        obtain ⟨_, hvalid, hrest⟩ := bind_eq_ok.mp hrest
        obtain rfl := pure_eq_ok.mp hrest
        exact ⟨number, events, rfl, hevents, hfound, hvalid⟩
      · exact nomatch hrest
    · rintro ⟨_, events, rfl, hevents, hfound, hvalid⟩
      refine ⟨events, hevents, ?_⟩
      rw [hfound]
      exact bind_eq_ok.mpr ⟨(), hvalid, rfl⟩

/-- A committed promotion is prepared, its decision stands, and so does the evidence for it. -/
theorem committedPromotion_eq_ok {out : Outside} {pointers : Pointers} :
    committedPromotion out s digest m pointers = .ok () ↔
      pointers.consumedEvaluations.lookup m.evaluationRecord.recordDigest = some digest ∧
      ∃ events, s.ledgerEvents m.experimentId = .ok events ∧
        isPrepared digest (.promotion m) events = true ∧
        ∃ event, events.find? (·.1.sequence = m.decisionEventSequence) = some event ∧
          jsonDigest (eventDocument event) = m.decisionEventDigest ∧
          out.verifier.map (·.policyDigest) = some m.authorityPolicyDigest ∧
          ∃ registration, m.registration s = .ok registration ∧
            (∃ decision, validateDecisionEvent s m.role m.candidateDigest m.experimentId
              m.parentDigest registration (some m.decisionEventSequence) = .ok decision) ∧
            ∃ evidence, resolveEventEvidence out s event.2 m.promoterId (some m.admittedAt) =
                .ok evidence ∧ m.isAuthorized digest pointers evidence.2.2 = true ∧
              m.isBound event.2 evidence.1 evidence.2.1 = true := by
  rw [committedPromotion, guard_eq_ok, not_not, bind_eq_ok]
  refine and_congr_right fun _ ↦ exists_congr fun events ↦ and_congr_right fun _ ↦ ?_
  rw [guard_eq_ok, Bool.not_eq_true', Bool.not_eq_false]
  refine and_congr_right fun _ ↦ ?_
  cases events.find? (·.1.sequence = m.decisionEventSequence) with
  | none => exact ⟨nofun, nofun⟩
  | some event =>
    simp only [guard_eq_ok, bind_eq_ok, check_eq_ok, not_not, Bool.not_eq_true', Bool.not_eq_false,
      Option.some.injEq, exists_eq_left', PromotionManifest.registration, exists_and_right]

/-- A promotion that resolved does so with another registration exactly if this has the same author
and experiment. -/
theorem Registered.committedPromotion_iff (h : Registered s s' name added) {out : Outside}
    {pointers : Pointers} (hcommitted : committedPromotion out s digest m pointers = .ok ())
    (hcurrent : m.registration s = .ok current) (hrecord : m.registration s' = .ok record)
    (hfits : m.fits record = true) :
    committedPromotion out s' digest m pointers = .ok () ↔
      record.get "created_by" = current.get "created_by" ∧
        record.get "experiment_id" = .str m.experimentId := by
  obtain ⟨hconsumed, events, hevents, hprepared, event, hevent, hdigest, hverifier, registration,
    hregistration, ⟨decision, hdecision⟩, evidence, hevidence, hauthorized, hbound⟩ :=
    committedPromotion_eq_ok.mp hcommitted
  obtain rfl := Except.ok.inj (hcurrent.symm.trans hregistration)
  obtain ⟨number, all, hnumber, hall, hfound, hvalid⟩ := validateDecisionEvent_eq_ok.mp hdecision
  obtain ⟨all', hall', hfound'⟩ := h.filter_sequence hall hfound
  constructor
  · intro hcommitted'
    obtain ⟨-, -, -, -, -, -, -, -, registration', hregistration', ⟨decision', hdecision'⟩, -⟩ :=
      committedPromotion_eq_ok.mp hcommitted'
    obtain rfl := Except.ok.inj (hrecord.symm.trans hregistration')
    obtain ⟨_, _, hnumber', hagain, hfound'', hvalid'⟩ := validateDecisionEvent_eq_ok.mp hdecision'
    -- both registrations are held against one and the same decision
    obtain rfl := Option.some.inj (hnumber.symm.trans hnumber')
    obtain rfl := Except.ok.inj (hall'.symm.trans hagain)
    obtain rfl := List.singleton_inj.mp (hfound'.symm.trans hfound'')
    obtain ⟨hauthor, -⟩ := registration_of_validateDecision hvalid
    obtain ⟨hauthor', hexperiment'⟩ := registration_of_validateDecision hvalid'
    exact ⟨hauthor'.trans hauthor.symm, hexperiment'⟩
  · rintro ⟨hauthor, hexperiment⟩
    rw [PromotionManifest.fits, Bool.and_eq_true] at hfits
    have hvalid' := validateDecision_of_same hvalid hfits.2 hauthor hexperiment
    obtain ⟨events', hevents', hprepared'⟩ := h.isPrepared hevents
    have hevent' : events'.find? (·.1.sequence = m.decisionEventSequence) = some event := by
      obtain ⟨_, hagain, hmore⟩ := h.ledgerEvents hevents
      obtain rfl := Except.ok.inj (hevents'.symm.trans hagain)
      rcases hmore with rfl | ⟨_, -, rfl, -⟩
      · exact hevent
      · rw [List.find?_append, hevent, Option.some_or]
    exact committedPromotion_eq_ok.mpr ⟨hconsumed, events', hevents', hprepared'.trans hprepared,
      event, hevent', hdigest, hverifier, record, hrecord,
      ⟨decision, validateDecisionEvent_eq_ok.mpr ⟨number, all', hnumber, hall', hfound', hvalid'⟩⟩,
      evidence, h.resolveEventEvidence evidence hevidence, hauthorized, hbound⟩

/-! ## Champions -/

/-- The promotion that a role is bound to. -/
def IsBoundTo (s : Registry) (role : Role) (m : PromotionManifest) : Prop :=
  ∃ pointers binding, s.readPointers = .ok pointers ∧
    pointers.promotionBindings.lookup role.value = some binding ∧
    readManifest s binding = .ok (.promotion m)

theorem committedActivation_eq_ok {out : Outside} {pointers : Pointers}
    {activation : String × String} :
    committedActivation out s digest pointers = .ok activation ↔
      (∃ m, readManifest s digest = .ok (.promotion m) ∧
        committedPromotion out s digest m pointers = .ok () ∧
        activation = (m.role, m.candidateDigest)) ∨
      ∃ m, readManifest s digest = .ok (.bootstrap m) ∧
        committedBootstrap s digest m pointers = .ok () ∧
        activation = (m.role, m.candidateDigest) := by
  rw [committedActivation, bind_eq_ok]
  constructor
  · rintro ⟨manifest, hmanifest, hrest⟩
    cases manifest with
    | promotion m =>
      obtain ⟨_, hcommitted, hactivation⟩ := bind_eq_ok.mp hrest
      exact .inl ⟨m, hmanifest, hcommitted, pure_eq_ok.mp hactivation⟩
    | bootstrap m =>
      obtain ⟨_, hcommitted, hactivation⟩ := bind_eq_ok.mp hrest
      exact .inr ⟨m, hmanifest, hcommitted, pure_eq_ok.mp hactivation⟩
    | adverse m => exact nomatch hrest
  · rintro (⟨m, hmanifest, hcommitted, hactivation⟩ | ⟨m, hmanifest, hcommitted, hactivation⟩)
    · exact ⟨_, hmanifest, bind_eq_ok.mpr ⟨(), hcommitted, pure_eq_ok.mpr hactivation⟩⟩
    · exact ⟨_, hmanifest, bind_eq_ok.mpr ⟨(), hcommitted, pure_eq_ok.mpr hactivation⟩⟩

/-- A champion is there and resolves, or there is none. -/
theorem championDigest_eq_ok {out : Outside} {name : String} {value : Option String} :
    championDigest out s name = .ok value ↔ ∃ role pointers, roleValue name = .ok role ∧
      s.ensureKnownCommit = .ok () ∧ s.readPointers = .ok pointers ∧
      pointers.champions.lookup role.value = value ∧
      ∀ digest, value = some digest → (∃ file, s.artifact digest = .ok (some file)) ∧
        championPromotionResolves out s role digest = .ok true := by
  simp only [championDigest, bind_eq_ok]
  constructor
  · rintro ⟨role, hrole, _, hknown, pointers, hpointers, hrest⟩
    refine ⟨role, pointers, hrole, hknown, hpointers, ?_⟩
    cases hchampion : pointers.champions.lookup role.value with
    | none =>
      rw [hchampion] at hrest
      obtain rfl := pure_eq_ok.mp hrest
      exact ⟨rfl, nofun⟩
    | some digest =>
      simp only [hchampion, bind_eq_ok, guard_eq_ok, pure_eq_ok] at hrest
      obtain ⟨file, hfile, hthere, resolves, hresolves, htrue, rfl⟩ := hrest
      refine ⟨rfl, fun _ heq ↦ ?_⟩
      obtain rfl := Option.some.inj heq
      obtain rfl : resolves = true := by simpa using htrue
      obtain ⟨file, rfl⟩ := Option.ne_none_iff_exists'.mp (by simpa using hthere)
      exact ⟨⟨file, hfile⟩, hresolves⟩
  · rintro ⟨role, pointers, hrole, hknown, hpointers, hchampion, hresolves⟩
    refine ⟨role, hrole, (), hknown, pointers, hpointers, ?_⟩
    cases value with
    | none => rw [hchampion]; rfl
    | some digest =>
      obtain ⟨⟨file, hfile⟩, htrue⟩ := hresolves digest rfl
      simp only [hchampion, bind_eq_ok, guard_eq_ok, pure_eq_ok]
      exact ⟨some file, hfile, by simp, true, htrue, by simp, trivial⟩

/-- The record would be taken for the registration of the promotion, and is not like the one that
was. -/
def Displaces (s : Registry) (m : PromotionManifest) (name : String) (record : Record) : Prop :=
  Overshadows s m name record ∧ ∃ current, m.registration s = .ok current ∧
    ¬(record.get "created_by" = current.get "created_by" ∧
      record.get "experiment_id" = .str m.experimentId)

/-- A promotion resolves as before if no record displaces its registration. -/
theorem Registered.committedPromotion_of_not (h : Registered s s' name added) {out : Outside}
    {pointers : Pointers} (hone : added.length ≤ 1)
    (hcommitted : committedPromotion out s digest m pointers = .ok ())
    (hnot : ∀ record ∈ added, ¬Displaces s m name record) :
    committedPromotion out s' digest m pointers = .ok () := by
  obtain ⟨-, -, -, -, -, -, -, -, current, hcurrent, ⟨decision, hdecision⟩, -⟩ :=
    committedPromotion_eq_ok.mp hcommitted
  by_cases hlast : ∃ record ∈ added, Overshadows s m name record
  · obtain ⟨record, hmem, hlast⟩ := hlast
    obtain rfl : added = [record] := by
      obtain ⟨other, rfl⟩ := List.length_eq_one_iff.mp
        (le_antisymm hone (List.length_pos_of_mem hmem))
      rw [List.mem_singleton.mp hmem]
    have hsame := not_not.mp fun hdiffers ↦ hnot record hmem ⟨hlast, current, hcurrent, hdiffers⟩
    exact (h.committedPromotion_iff hcommitted hcurrent
      (h.registration_of_overshadows hcurrent hlast) hlast.1).mpr hsame
  · -- the registration is the one that it was
    have hsame := h.registration_of_not hcurrent fun record hmem hrecord ↦
      hlast ⟨record, hmem, hrecord⟩
    obtain ⟨_, _, -, -, -, hvalid⟩ := validateDecisionEvent_eq_ok.mp hdecision
    exact (h.committedPromotion_iff hcommitted hcurrent hsame (fits_of_registration hcurrent)).mpr
      ⟨rfl, (registration_of_validateDecision hvalid).2⟩

/-- A promotion does not resolve any more if a record displaces its registration. -/
theorem Registered.not_committedPromotion (h : Registered s s' name [record]) {out : Outside}
    {pointers : Pointers} (hcommitted : committedPromotion out s digest m pointers = .ok ())
    (hdisplaces : Displaces s m name record) :
    committedPromotion out s' digest m pointers ≠ .ok () := by
  obtain ⟨hlast, current, hcurrent, hdiffers⟩ := hdisplaces
  exact fun hcommitted' ↦ hdiffers <| (h.committedPromotion_iff hcommitted hcurrent
    (h.registration_of_overshadows hcurrent hlast) hlast.1).mp hcommitted'

/-! ## Champions once more -/

/-- The record takes the place of the registration of the champion of the role. -/
def Disturbs (s : Registry) (role : Role) (name : String) (record : Record) : Prop :=
  ∃ m, IsBoundTo s role m ∧ Displaces s m name record

theorem Registered.championPromotionResolves (h : Registered s s' name added) {out : Outside}
    {role : Role} (hone : added.length ≤ 1)
    (hresolves : championPromotionResolves out s role digest = .ok true)
    (hnot : ∀ record ∈ added, ¬Disturbs s role name record) :
    championPromotionResolves out s' role digest = .ok true := by
  obtain ⟨_, hknown, hresolves⟩ := bind_eq_ok.mp hresolves
  obtain ⟨pointers, hpointers, hresolves⟩ := bind_eq_ok.mp hresolves
  refine bind_eq_ok.mpr ⟨(), h.ensureKnownCommit.trans hknown,
    bind_eq_ok.mpr ⟨pointers, h.readPointers.trans hpointers, ?_⟩⟩
  cases hbinding : pointers.promotionBindings.lookup role.value with
  | none =>
    rw [hbinding] at hresolves
    exact h.bootstrapPromotionResolves true hresolves
  | some binding =>
    rw [hbinding] at hresolves
    obtain ⟨activation, hactivation, htrue⟩ := bind_eq_ok.mp hresolves
    refine bind_eq_ok.mpr ⟨activation, committedActivation_eq_ok.mpr ?_, htrue⟩
    rcases committedActivation_eq_ok.mp hactivation with
      ⟨m, hmanifest, hcommitted, hsame⟩ | ⟨m, hmanifest, hcommitted, hsame⟩
    · refine .inl ⟨m, h.readManifest.trans hmanifest, ?_, hsame⟩
      exact h.committedPromotion_of_not hone hcommitted fun record hrecord hdisplaces ↦
        hnot record hrecord ⟨m, ⟨pointers, binding, hpointers, hbinding, hmanifest⟩, hdisplaces⟩
    · exact .inr ⟨m, h.readManifest.trans hmanifest, h.committedBootstrap () hcommitted, hsame⟩

/-- A champion is read as before if no record takes the place of its registration. -/
theorem Registered.championDigest_of_not (h : Registered s s' name added) {out : Outside}
    {roleName : String} {role : Role} {value : Option String} (hone : added.length ≤ 1)
    (hvalue : championDigest out s roleName = .ok value) (hrole : roleValue roleName = .ok role)
    (hnot : ∀ record ∈ added, ¬Disturbs s role name record) :
    championDigest out s' roleName = .ok value := by
  obtain ⟨role', pointers, hrole', hknown, hpointers, hchampion, hresolves⟩ :=
    championDigest_eq_ok.mp hvalue
  obtain rfl := Except.ok.inj (hrole.symm.trans hrole')
  refine championDigest_eq_ok.mpr ⟨role, pointers, hrole, h.ensureKnownCommit.trans hknown,
    h.readPointers.trans hpointers, hchampion, fun digest hdigest ↦ ?_⟩
  obtain ⟨⟨file, hfile⟩, htrue⟩ := hresolves digest hdigest
  exact ⟨⟨file, h.artifact hfile⟩, h.championPromotionResolves hone htrue hnot⟩

omit [Hash256] in
/-- A role that is bound to an admission has a champion. -/
theorem exists_champion {pointers : Pointers} {role binding : String}
    (hpointers : s.readPointers = .ok pointers)
    (hbinding : pointers.promotionBindings.lookup role = some binding) :
    ∃ digest, pointers.champions.lookup role = some digest := by
  have hmem := Dicts.mem_of_lookup hbinding
  rw [Registry.readPointers] at hpointers
  split at hpointers
  · obtain rfl := pure_eq_ok.mp hpointers
    exact nomatch hmem
  · exact nomatch hpointers
  · next p _ =>
    split at hpointers
    · exact nomatch hpointers
    split at hpointers
    · exact nomatch hpointers
    split at hpointers
    · exact nomatch hpointers
    next hvalid =>
    obtain rfl := pure_eq_ok.mp hpointers
    simp only [Pointers.isValid, Bool.not_eq_true', Bool.not_eq_false, Bool.and_eq_true,
      List.all_eq_true, List.any_eq_true, decide_eq_true_eq] at hvalid
    obtain ⟨entry, hentry, hrole⟩ := hvalid.2 _ hmem
    have hdomain : role ∈ pointers.champions.map Prod.fst :=
      List.mem_map.mpr ⟨entry, hentry, hrole⟩
    exact Option.isSome_iff_exists.mp (List.lookup_isSome_iff.mpr (by simpa using hdomain))

/-- The promotion that a champion is bound to resolves when the champion is read. -/
theorem committedPromotion_of_championDigest {out : Outside} {roleName binding : String}
    {role : Role} {pointers : Pointers} {value : Option String}
    (hvalue : championDigest out s roleName = .ok value) (hrole : roleValue roleName = .ok role)
    (hpointers : s.readPointers = .ok pointers)
    (hbinding : pointers.promotionBindings.lookup role.value = some binding)
    (hmanifest : readManifest s binding = .ok (.promotion m)) :
    committedPromotion out s binding m pointers = .ok () := by
  obtain ⟨role', pointers', hrole', -, hpointers', hchampion, hresolves⟩ :=
    championDigest_eq_ok.mp hvalue
  obtain rfl := Except.ok.inj (hrole.symm.trans hrole')
  obtain rfl := Except.ok.inj (hpointers.symm.trans hpointers')
  obtain ⟨digest, hdigest⟩ := exists_champion hpointers hbinding
  obtain ⟨-, htrue⟩ := hresolves digest (hchampion.symm.trans hdigest)
  obtain ⟨_, -, htrue⟩ := bind_eq_ok.mp htrue
  obtain ⟨pointers', hagain, htrue⟩ := bind_eq_ok.mp htrue
  obtain rfl := Except.ok.inj (hpointers.symm.trans hagain)
  rw [hbinding] at htrue
  obtain ⟨activation, hactivation, -⟩ := bind_eq_ok.mp htrue
  rcases committedActivation_eq_ok.mp hactivation with ⟨m', hm, hcommitted, -⟩ | ⟨m', hm, -, -⟩
  · obtain rfl : m = m' := Manifest.promotion.inj (Except.ok.inj (hmanifest.symm.trans hm))
    exact hcommitted
  · exact nomatch hmanifest.symm.trans hm

/-- A champion is not read any more if a record takes the place of its registration. -/
theorem Registered.championDigest_ne (h : Registered s s' name [record]) {out : Outside}
    {roleName : String} {role : Role} {value : Option String}
    (hvalue : championDigest out s roleName = .ok value) (hrole : roleValue roleName = .ok role)
    (hdisturbs : Disturbs s role name record) : championDigest out s' roleName ≠ .ok value := by
  obtain ⟨m, ⟨pointers, binding, hpointers, hbinding, hmanifest⟩, hdisplaces⟩ := hdisturbs
  have hcommitted := committedPromotion_of_championDigest hvalue hrole hpointers hbinding hmanifest
  exact fun hvalue' ↦ h.not_committedPromotion hcommitted hdisplaces <|
    committedPromotion_of_championDigest hvalue' hrole (h.readPointers.trans hpointers) hbinding
      (h.readManifest.trans hmanifest)

/-! ## Registrations -/

/-- What is known of a record that a registration writes. -/
theorem of_writtenRecord {call : RegisterCall} {chance : ℕ → Chance}
    (h : writtenRecord s call chance = some record) :
    (chance 1).name ∉ s.lineage.names ∧ record.get "kind" = .str "registration" := by
  rw [writtenRecord] at h
  split at h
  · dsimp only at h
    split at h
    · next hwritten =>
      obtain rfl := Option.some.inj h
      simp only [Bool.and_eq_true, decide_eq_true_eq] at hwritten
      exact ⟨hwritten.1.2, get_registrationRecord _ _ _ _ "kind"⟩
    · cases h
  · cases h

theorem registered_register (call : RegisterCall) (chance : ℕ → Chance) (s : Registry) :
    Registered s (final (register call chance s)) (chance 1).name
      (writtenRecord s call chance).toList := by
  obtain ⟨hgrows, hlineage⟩ := register_spec call chance s
  refine ⟨hgrows, fun records hrecords ↦ ?_, fun record hrecord ↦
    (of_writtenRecord (Option.mem_toList.mp hrecord)).2⟩
  rw [hlineage]
  cases hwritten : writtenRecord s call chance with
  | none => exact ⟨records, [], (List.append_nil _).symm, fun h ↦ absurd rfl h, by simpa⟩
  | some record =>
    obtain ⟨first, last, rfl, hlast, hread⟩ :=
      readRecords_add record hrecords (of_writtenRecord hwritten).1
    refine ⟨first, last, rfl, fun _ ↦ ?_, by simpa using hread⟩
    have hlater := congrArg (List.filterMap id) hlast
    rw [List.filterMap_map, List.filterMap_map] at hlater
    simpa [laterRecords] using hlater.symm

/-- **When a registration leaves a champion alone**: when it writes no record that takes the place of
the registration of the champion. -/
theorem champion_kept_iff {out : Outside} {roleName : String} {role : Role} {value : Option String}
    (call : RegisterCall) (chance : ℕ → Chance)
    (hvalue : championDigest out s roleName = .ok value) (hrole : roleValue roleName = .ok role) :
    championDigest out (final (register call chance s)) roleName = .ok value ↔
      ∀ record, writtenRecord s call chance = some record →
        ¬Disturbs s role (chance 1).name record := by
  have hregistered := registered_register call chance s
  constructor
  · intro hkept record hwritten hdisturbs
    rw [hwritten] at hregistered
    exact hregistered.championDigest_ne hvalue hrole hdisturbs hkept
  · intro hnot
    refine hregistered.championDigest_of_not ?_ hvalue hrole fun record hrecord ↦
      hnot record (Option.mem_toList.mp hrecord)
    cases writtenRecord s call chance with
    | none => exact Nat.zero_le 1
    | some record => exact le_refl 1

/-! ## A second registration of the champion -/

/-- The prompt of the builder, as it was improved. -/
def improvedDigest : String := promptDigest "improved"

def improvedSubjectDocument : Json := .mkObj [("schema_version", .int 1),
  ("kind", .str "prompt-evaluation-subject"),
  ("descriptor", .mkObj [("challenger_id", .str "candidate"), ("parent_champion_id", .str "none"),
    ("change_ref", .str "change"), ("proposal_digest", .str improvedDigest)]),
  ("candidate_id", .str "candidate"), ("role", .str "builder"),
  ("experiment_id", .str "experiment"), ("artifact_digest", .str improvedDigest),
  ("parent_champion_digest", .null), ("proposer_id", .str "proposer"),
  ("builder_id", .str "builder"), ("evidence_refs", .arr [.str "report"]),
  ("contract_fingerprint", .str improvedDigest)]

def improvedSubject : Subject where
  candidateId := "candidate"
  role := "builder"
  experimentId := "experiment"
  artifactDigest := improvedDigest
  parentChampionDigest := none
  proposerId := "proposer"
  builderId := "builder"
  evidenceRefs := ["report"]
  contractFingerprint := improvedDigest
  subjectDigest := jsonDigest improvedSubjectDocument

def improvedReference : Reference :=
  ⟨"EVAL-0123456789abcdef", "/records/evaluation.json", jsonDigest improvedSubjectDocument⟩

/-- The members of the payload of the decision to keep the prompt. -/
def improvedMembers : List (String × Json) := [("verdict", .str "keep"), ("action", .str "apply"),
  ("role", .str "builder"), ("candidate_id", .str "candidate"),
  ("candidate_digest", .str improvedDigest), ("current_digest", .null),
  ("registration_experiment_id", .str "experiment"), ("registration_role", .str "builder"),
  ("registration_author", .str "proposer"), ("registration_parent_digest", .null),
  ("proposer_id", .str "proposer"), ("builder_id", .str "builder"),
  ("evaluator_id", .str "evaluator"), ("judge_id", .str "judge"),
  ("promoter_id", .str "promoter"), ("retained_artifact_refs", .arr [.str "report"]),
  ("contract_fingerprint", .str improvedDigest), ("evaluation_subject", improvedSubjectDocument),
  ("evaluation_record", improvedReference.document),
  ("evaluation_subject_digest", .str (jsonDigest improvedSubjectDocument)),
  ("decision_binding_digest", .str (jsonDigest improvedSubject.candidateBinding)),
  ("authorization", .str "signed")]

def improvedPayload : Json := .mkObj improvedMembers

theorem field_improvedPayload (name : String) :
    field improvedPayload name = (improvedMembers.lookup name).getD .null :=
  field_mkObj (by simp [improvedMembers]) name

theorem sorted_improvedPayload : improvedPayload.Sorted := by
  have hreference : improvedReference.document.Sorted := Json.sorted_mkObj (by simp [Json.Sorted])
  have hsubject : improvedSubjectDocument.Sorted := Json.sorted_mkObj <| by
    simp [Json.Sorted, Json.SortedList, Json.sorted_mkObj]
  exact Json.sorted_mkObj <| by
    simp [improvedMembers, Json.Sorted, Json.SortedList, hreference, hsubject]

/-- The decision, the first row of the ledger. -/
def decisionRow : LedgerRow :=
  Evidence.newRow ⟨"experiment", "experiment.decision", "judge", improvedPayload,
    sorted_improvedPayload, "2029-01-01T00:00:00Z"⟩ 1 ""

def improvedManifest : PromotionManifest where
  role := "builder"
  candidateDigest := improvedDigest
  parentDigest := none
  experimentId := "experiment"
  decisionEventSequence := 1
  decisionEventDigest := jsonDigest (eventDocument (decisionRow, improvedPayload))
  evaluationSubjectDigest := jsonDigest improvedSubjectDocument
  evaluationRecord := improvedReference
  contractFingerprint := improvedDigest
  evaluatorId := "evaluator"
  judgeId := "judge"
  promoterId := "promoter"
  artifactRefs := ["report"]
  rollbackDigest := none
  admittedAt := "2029-01-01T00:00:01Z"
  authorityPolicyDigest := "policy"
  authorizationDigest := "authorization"
  authorizationNonces := [improvedDigest]

def improvedBinding : String := jsonDigest (Manifest.promotion improvedManifest).document

theorem sorted_preparedPayload_improved :
    (preparedPayload improvedBinding (.promotion improvedManifest)).Sorted := by
  have hreference : improvedReference.document.Sorted := Json.sorted_mkObj (by simp [Json.Sorted])
  have hmanifest : (Manifest.promotion improvedManifest).document.Sorted := Json.sorted_mkObj <| by
    simp [improvedManifest, Json.Sorted, Json.SortedList, Runtime.optionalText, hreference]
  exact Json.sorted_mkObj (by simp [Json.Sorted, hmanifest])

/-- The preparation of the promotion, the second row. -/
def preparedRow : LedgerRow :=
  Evidence.newRow ⟨"experiment", "prompt.promotion_prepared", "promoter", _,
    sorted_preparedPayload_improved, "2029-01-01T00:00:02Z"⟩ 2 (Evidence.eventDigest decisionRow "")

def improvedCall : RegisterCall := ⟨"builder", some "improved", none, "proposer", some "experiment"⟩

def improvedRegistration : Record :=
  registrationRecord improvedCall .builder improvedDigest "2028-12-31T00:00:00Z"

def improvedPointers : Pointers where
  schemaVersion := 2
  champions := [("builder", improvedDigest)]
  promotionBindings := [("builder", improvedBinding)]
  consumedEvaluations := [(jsonDigest improvedSubjectDocument, improvedBinding)]
  consumedNonces := [(improvedDigest, improvedBinding)]
  quarantinedArtifacts := []
  bootstrapBindings := []

/-- A registry in which the builder has a champion that was promoted. -/
def improvedRegistry : Registry where
  artifacts := [(improvedDigest, some "improved")]
  lineage := Folder.empty.add "m.json" (some improvedRegistration)
  events := .empty
  admissions := [(improvedBinding, .manifest (.promotion improvedManifest) true)]
  pointerFile := .document improvedPointers
  unknownCommit := false
  ledger := ⟨[decisionRow, preparedRow], by simp [decisionRow, preparedRow, Evidence.newRow]⟩

def improvedVerifier : Verifier where
  policyDigest := "policy"
  verifyAuthorization _ := .ok ⟨"authorization", "policy", [improvedDigest]⟩
  signRejection := .ok

/-- What the registry relies on, as far as this champion goes. -/
def improvedOutside : Outside where
  subject j := if j = improvedSubjectDocument then .ok improvedSubject else .error "subject"
  reference j := if j = improvedReference.document then .ok improvedReference else .error "record"
  resolve _ _ _ _ := .ok ()
  recheck _ _ := .ok ()
  verifier := some improvedVerifier
  now := "2029-01-02T00:00:00Z"

omit [Hash256] in
theorem readPointers_of_isValid {pointers : Pointers} (hfile : s.pointerFile = .document pointers)
    (hschema : pointers.schemaVersion = 2) (hvalid : pointers.isValid = true) :
    s.readPointers = .ok pointers := by
  simp [Registry.readPointers, hfile, hschema, hvalid, pure_eq_ok]

theorem readPointers_improved : improvedRegistry.readPointers = .ok improvedPointers := by
  have hprompt : isDigest improvedDigest = true := isDigest_promptDigest _
  have hbinding : isDigest improvedBinding = true := isDigest_jsonDigest _
  have hrecord : isDigest (jsonDigest improvedSubjectDocument) = true := isDigest_jsonDigest _
  have hvalid : improvedPointers.isValid = true := by
    simp [improvedPointers, Pointers.isValid, Pointers.bindRoles, Pointers.bindDigests, Role.all,
      Role.value, hprompt, hbinding, hrecord]
  exact readPointers_of_isValid rfl rfl hvalid

theorem events_improved : improvedRegistry.ledgerEvents "experiment" = .ok
    [(decisionRow, improvedPayload),
      (preparedRow, preparedPayload improvedBinding (.promotion improvedManifest))] := by
  refine mapError_eq_ok.mpr (Evidence.events_some_eq_ok.mpr
    ⟨⟨Evidence.eventDigest preparedRow (Evidence.eventDigest decisionRow ""), ?_⟩, ?_⟩)
  · exact Trace.foldlM_cons_eq_ok.mpr ⟨_, Evidence.validateRow_eq_ok.mpr ⟨rfl, rfl, rfl⟩,
      Trace.foldlM_cons_eq_ok.mpr ⟨_, Evidence.validateRow_eq_ok.mpr ⟨rfl, rfl, rfl⟩, rfl⟩⟩
  · refine .cons (Evidence.readRow_eq_ok.mpr ⟨rfl, Json.loads_dumpsAscii sorted_improvedPayload⟩)
      (.cons (Evidence.readRow_eq_ok.mpr ⟨rfl, Json.loads_dumpsAscii
        sorted_preparedPayload_improved⟩) .nil)

theorem readManifest_improved :
    readManifest improvedRegistry improvedBinding = .ok (.promotion improvedManifest) := by
  have hbinding : isDigest improvedBinding = true := isDigest_jsonDigest _
  have hfile : admissionFile improvedRegistry improvedBinding =
      .ok (.manifest (.promotion improvedManifest) true) := by
    simp [admissionFile, hbinding, improvedRegistry, pure_eq_ok]
  rw [readManifest, hfile, ok_bind]
  exact guard_eq_ok.mpr ⟨by simp [improvedBinding], rfl⟩

theorem registration_improved :
    improvedManifest.registration improvedRegistry = .ok improvedRegistration := by
  have hfits : improvedManifest.fits improvedRegistration = true := by
    simp [PromotionManifest.fits, isRegistration, improvedRegistration, get_registrationRecord,
      registrationMembers, List.lookup, improvedManifest, improvedCall, Role.value,
      Runtime.optionalText]
  have hread : Registry.readRecords improvedRegistry.lineage = .ok [improvedRegistration] := rfl
  refine registration_eq_ok.mpr ⟨_, bind_eq_ok.mpr ⟨_, hread, rfl⟩, ?_⟩
  rw [filter_filter_fits, List.filter_cons, if_pos hfits]
  rfl

theorem checkArtifact_improved : checkArtifact improvedRegistry improvedDigest = .ok () := by
  have hprompt : isDigest improvedDigest = true := isDigest_promptDigest _
  have hfile : improvedRegistry.artifact improvedDigest = .ok (some (some "improved")) := by
    simp [Registry.artifact, hprompt, improvedRegistry, pure_eq_ok]
  rw [checkArtifact, hfile, ok_bind]
  exact check_eq_ok.mpr (by simp [show canonicalPrompt "improved" = "improved" by decide, improvedDigest])

theorem validateDecision_improved : validateDecision "builder" improvedDigest "experiment" none
    improvedRegistration (decisionRow, improvedPayload) = .ok () := by
  have hauthor : improvedRegistration.get "created_by" = .str "proposer" :=
    get_registrationRecord _ _ _ _ "created_by"
  have hexperiment : improvedRegistration.get "experiment_id" = .str "experiment" :=
    get_registrationRecord _ _ _ _ "experiment_id"
  have hrole : improvedRegistration.get "role" = .str "builder" :=
    get_registrationRecord _ _ _ _ "role"
  have hparent : improvedRegistration.get "parent_digest" = .null :=
    get_registrationRecord _ _ _ _ "parent_digest"
  simp only [validateDecision, guard_eq_ok, bind_eq_ok, field_improvedPayload]
  refine ⟨?_, ?_, (), forM_eq_ok.mpr ?_, ?_, ?_, ?_, ?_, ?_⟩
  · simp [decisionRow, Evidence.newRow]
  · simp [improvedPayload, Json.mkObj, Json.asObj?]
  · simp [expectedFields, hauthor, improvedMembers, List.lookup, Runtime.optionalText, pure_eq_ok]
  · simp [hexperiment, hrole, hparent, Runtime.optionalText]
  · simp [improvedMembers, List.lookup, isIdentity, field_improvedPayload]
    decide
  · simp [improvedMembers, List.lookup, decisionRow, Evidence.newRow]
  · simp [improvedMembers, List.lookup]
  · have hreport : isRequired "report" = true := by decide
    have hprompt : isRequired improvedDigest = true := by
      rw [isRequired, improvedDigest, promptDigest, String.toList_append]
      rfl
    simp [improvedMembers, List.lookup, isIdentity, hreport, hprompt, pure_eq_ok]

theorem resolveEventEvidence_improved :
    resolveEventEvidence improvedOutside improvedRegistry improvedPayload "promoter"
      (some "2029-01-01T00:00:01Z") = .ok (improvedSubject, improvedReference,
        ⟨"authorization", "policy", [improvedDigest]⟩) := by
  simp only [resolveEventEvidence, guard_eq_ok, bind_eq_ok, mapError_eq_ok]
  have hsubject : field improvedPayload "evaluation_subject" = improvedSubjectDocument :=
    field_improvedPayload "evaluation_subject"
  have hreference : field improvedPayload "evaluation_record" = improvedReference.document :=
    field_improvedPayload "evaluation_record"
  refine ⟨?_, improvedSubject, ?_, improvedReference, ?_, ?_, ?_, ?_⟩
  · have hkind : field improvedSubjectDocument "kind" = .str "prompt-evaluation-subject" :=
      field_mkObj (by simp) "kind"
    have hversion : field improvedReference.document "schema_version" = .int 1 :=
      field_mkObj (by simp) "schema_version"
    rw [hsubject, hreference, truthy_of_field (by rw [hkind]; rintro ⟨⟩),
      truthy_of_field (by rw [hversion]; rintro ⟨⟩)]
    decide
  · rw [hsubject]
    simp [improvedOutside]
  · rw [hreference]
    simp [improvedOutside]
  · simp [Subject.expected, field_improvedPayload, improvedMembers, List.lookup, improvedSubject, Runtime.optionalText]
  · rw [field_improvedPayload]
    simp [improvedMembers, List.lookup]
  · have hverdict : field improvedPayload "verdict" = .str "keep" := field_improvedPayload _
    have hevaluator : field improvedPayload "evaluator_id" = .str "evaluator" :=
      field_improvedPayload _
    have hjudge : field improvedPayload "judge_id" = .str "judge" := field_improvedPayload _
    have hpromoter : field improvedPayload "promoter_id" = .str "promoter" :=
      field_improvedPayload _
    have hverify : ∀ now, verifyPrincipals improvedVerifier improvedPayload improvedSubject
        improvedReference "promoter" now =
          .ok ⟨"authorization", "policy", [improvedDigest]⟩ := by
      intro now
      simp only [verifyPrincipals, guard_eq_ok, bind_eq_ok]
      exact ⟨by simp [hpromoter, improvedSubject], _, item_of_field hevaluator (by rintro ⟨⟩), _,
        item_of_field hjudge (by rintro ⟨⟩), rfl⟩
    refine ⟨_, item_of_field hevaluator (by rintro ⟨⟩), _,
      item_of_field hverdict (by rintro ⟨⟩), (), rfl, ?_⟩
    exact bind_eq_ok.mpr ⟨_, hverify _, bind_eq_ok.mpr ⟨(), rfl, bind_eq_ok.mpr ⟨(),
      checkArtifact_improved, rfl⟩⟩⟩

theorem championDigest_improved :
    championDigest improvedOutside improvedRegistry "builder" = .ok (some improvedDigest) := by
  have hprompt : isDigest improvedDigest = true := isDigest_promptDigest _
  have hfile : improvedRegistry.artifact improvedDigest = .ok (some (some "improved")) := by
    simp [Registry.artifact, hprompt, improvedRegistry, pure_eq_ok]
  refine championDigest_eq_ok.mpr ⟨.builder, improvedPointers, rfl, rfl, readPointers_improved, rfl,
    fun digest hdigest ↦ ?_⟩
  obtain rfl := Option.some.inj hdigest
  refine ⟨⟨_, hfile⟩, bind_eq_ok.mpr ⟨(), rfl, bind_eq_ok.mpr ⟨_, readPointers_improved, ?_⟩⟩⟩
  refine bind_eq_ok.mpr ⟨("builder", improvedDigest), committedActivation_eq_ok.mpr
    (.inl ⟨_, readManifest_improved, committedPromotion_eq_ok.mpr ⟨?_, ?_⟩, rfl⟩), by simp; rfl⟩
  · simp [improvedPointers, improvedManifest, improvedReference]
  refine ⟨_, events_improved, ?_, (decisionRow, improvedPayload), ?_, rfl, rfl,
    improvedRegistration, registration_improved, ?_, _, resolveEventEvidence_improved, ?_, ?_⟩
  · simp [isPrepared, preparedRow, Evidence.newRow, decisionRow]
  · simp [decisionRow, Evidence.newRow, improvedManifest]
  · refine ⟨(decisionRow, improvedPayload), validateDecisionEvent_eq_ok.mpr
      ⟨1, _, rfl, events_improved, ?_, validateDecision_improved⟩⟩
    simp [decisionRow, preparedRow, Evidence.newRow]
  · simp [PromotionManifest.isAuthorized, improvedManifest, improvedPointers]
  · have hevaluator : field improvedPayload "evaluator_id" = .str "evaluator" :=
      field_improvedPayload _
    have hjudge : field improvedPayload "judge_id" = .str "judge" := field_improvedPayload _
    simp [PromotionManifest.isBound, improvedManifest, improvedSubject, hevaluator, hjudge]

/-- The improved prompt once more, from an author. -/
def secondCall (author : String) : RegisterCall := { improvedCall with createdBy := author }

/-- Every write is done, and the name that is drawn comes after that of the registration. -/
def secondChance : ℕ → Chance := fun _ ↦ ⟨.done, "z.json", "2029-01-03T00:00:00Z", none⟩

def secondRecord (author : String) : Record :=
  registrationRecord (secondCall author) .builder improvedDigest "2029-01-03T00:00:00Z"

theorem writtenRecord_second {author : String} (h : isRequired author = true) :
    writtenRecord improvedRegistry (secondCall author) secondChance =
      some (secondRecord author) := by
  have hcanonical : canonicalPrompt "improved" = "improved" := by decide
  have hname : "z.json" ∉ improvedRegistry.lineage.names := by
    change "z.json" ∉ ["m.json"]
    decide
  have hpublished : isPublished improvedRegistry (secondChance 0)
      (promptDigest (canonicalPrompt "improved")) (canonicalPrompt "improved") = true := by
    rw [hcanonical]
    simp [isPublished, improvedRegistry, improvedDigest]
  have hrole : roleValue (secondCall author).role = .ok .builder := rfl
  rw [writtenRecord_eq_some hrole rfl h hpublished hname (by rintro ⟨⟩), hcanonical]
  rfl

theorem get_secondRecord (author name : String) : (secondRecord author).get name =
    ((registrationMembers (secondCall author) .builder improvedDigest
      "2029-01-03T00:00:00Z").lookup name).getD .null := get_registrationRecord _ _ _ _ name

theorem isBoundTo_improved : IsBoundTo improvedRegistry .builder improvedManifest :=
  ⟨improvedPointers, improvedBinding, readPointers_improved,
    by simp [improvedPointers, Role.value], readManifest_improved⟩

theorem disturbs_second {author : String} (h : author ≠ "proposer") :
    Disturbs improvedRegistry .builder "z.json" (secondRecord author) := by
  have hfits : improvedManifest.fits (secondRecord author) = true := by
    simp [PromotionManifest.fits, isRegistration, get_secondRecord, registrationMembers, secondCall,
      List.lookup, improvedManifest, improvedCall, Role.value, Runtime.optionalText]
  have hlt : ¬decide ("z.json" < "m.json") = true := by decide
  have hafter : Folder.after "z.json" [("m.json", some improvedRegistration)] = [] := by
    rw [Folder.after, List.filter_cons, if_neg hlt, List.filter_nil]
  have hlater : laterRecords improvedRegistry "z.json" = [] :=
    congrArg (List.filterMap Prod.snd) hafter
  refine ⟨improvedManifest, isBoundTo_improved,
    ⟨hfits, by rw [hlater]; exact List.forall_mem_nil _⟩,
    improvedRegistration, registration_improved, fun hsame ↦ h ?_⟩
  have hauthor : improvedRegistration.get "created_by" = .str "proposer" :=
    get_registrationRecord _ _ _ _ "created_by"
  have hsecond : (secondRecord author).get "created_by" = .str author :=
    get_secondRecord author "created_by"
  exact Json.str.inj (hsecond.symm.trans (hsame.1.trans hauthor))

/-- A role is bound to at most one promotion. -/
theorem IsBoundTo.unique {role : Role} {m m' : PromotionManifest} (h : IsBoundTo s role m)
    (h' : IsBoundTo s role m') : m = m' := by
  obtain ⟨pointers, binding, hpointers, hbinding, hmanifest⟩ := h
  obtain ⟨pointers', binding', hpointers', hbinding', hmanifest'⟩ := h'
  obtain rfl := Except.ok.inj (hpointers.symm.trans hpointers')
  obtain rfl := Option.some.inj (hbinding.symm.trans hbinding')
  exact Manifest.promotion.inj (Except.ok.inj (hmanifest.symm.trans hmanifest'))

theorem not_disturbs_second :
    ¬Disturbs improvedRegistry .builder "z.json" (secondRecord "proposer") := by
  rintro ⟨m, hbound, -, current, hcurrent, hdiffers⟩
  obtain rfl := isBoundTo_improved.unique hbound
  obtain rfl := Except.ok.inj (registration_improved.symm.trans hcurrent)
  have hauthor : improvedRegistration.get "created_by" = .str "proposer" :=
    get_registrationRecord _ _ _ _ "created_by"
  have hsecond : (secondRecord "proposer").get "created_by" = .str "proposer" :=
    get_secondRecord _ "created_by"
  exact hdiffers ⟨hsecond.trans hauthor.symm, get_secondRecord _ "experiment_id"⟩

end Reading

/-- Another author registers the prompt of the champion for the same experiment. -/
theorem champion_disturbed : ¬∀ (out : Outside) (s : Registry) (roleName : String)
    (value : Option String) (call : RegisterCall) (chance : ℕ → Chance),
    championDigest out s roleName = .ok value →
      championDigest out (final (register call chance s)) roleName = .ok value := by
  intro h
  have hregistered := registered_register (secondCall "other") secondChance improvedRegistry
  rw [writtenRecord_second (by decide)] at hregistered
  exact hregistered.championDigest_ne championDigest_improved rfl (disturbs_second (by decide))
    (h _ _ _ _ _ _ championDigest_improved)

/-- The author of a champion registers it once more. -/
theorem champion_kept_by_author :
    championDigest improvedOutside
      (final (register (secondCall "proposer") secondChance improvedRegistry)) "builder" =
        .ok (some improvedDigest) := by
  refine (champion_kept_iff _ _ championDigest_improved rfl).mpr fun record hwritten ↦ ?_
  obtain rfl := Option.some.inj ((writtenRecord_second (by decide)).symm.trans hwritten)
  exact not_disturbs_second

end HiveMind.Prompts
