import HiveMind.Durable.ContractStore
import HiveMind.Lib.Machines
import HiveMind.Lib.Raise

/-!
# Memory of tenants

A namespace keeps values under a tenant, a repository and a name. Who puts or gets a value presents
a boundary, which also names a private store, the policies, and its own state. A revocation is
recorded under the digest of the boundary that was presented to `revoke`. Neither the values nor
the revocations survive a restart; the boundaries that do are not read again.

So a boundary that differs from the revoked one in any field is not revoked, and a value can be had
through a boundary with another private store.

* **`namespace_safe_iff`**: a run keeps subjects apart and revoked subjects out exactly when
  nobody presents such a boundary.
-/

open Raise Machines

namespace HiveMind.Durable

/-! ## Boundaries and handles -/

inductive BoundaryState where
  | bound
  | active
  | revoked
  | quarantined
  deriving DecidableEq, Repr

def BoundaryState.value : BoundaryState → String
  | bound => "BOUND"
  | active => "ACTIVE"
  | revoked => "REVOKED"
  | quarantined => "QUARANTINED"

theorem BoundaryState.inactive_iff (state : BoundaryState) :
    ¬(state = .bound ∨ state = .active) ↔ state = .revoked ∨ state = .quarantined := by
  cases state <;> decide

/-- `SubjectMemoryBoundary`. -/
structure SubjectMemoryBoundary where
  tenantId : String
  repositoryId : String
  privateStoreId : String
  cachePartitionId : String
  loggingPartitionId : String
  providerPolicyDigest : String
  encryptionProfileId : String
  retentionPolicyDigest : String
  state : BoundaryState
  identified : ∀ value ∈ [tenantId, repositoryId, privateStoreId, cachePartitionId,
    loggingPartitionId], isRequired value = true
  deriving DecidableEq

namespace SubjectMemoryBoundary

/-- `canonical_document` of a boundary. All of its values are texts, and so nothing is refused. -/
def document (boundary : SubjectMemoryBoundary) : Json :=
  Json.mkObj [("tenant_id", .str boundary.tenantId),
    ("repository_id", .str boundary.repositoryId),
    ("private_store_id", .str boundary.privateStoreId),
    ("cache_partition_id", .str boundary.cachePartitionId),
    ("logging_partition_id", .str boundary.loggingPartitionId),
    ("provider_policy_digest", .str boundary.providerPolicyDigest),
    ("encryption_profile_id", .str boundary.encryptionProfileId),
    ("retention_policy_digest", .str boundary.retentionPolicyDigest),
    ("state", .str boundary.state.value)]

theorem sorted_document (boundary : SubjectMemoryBoundary) : boundary.document.Sorted := by
  apply Json.sorted_mkObj
  simp [Json.Sorted]

def digest [Hash256] (boundary : SubjectMemoryBoundary) : String := jsonDigest boundary.document

theorem digest_ne_empty [Hash256] (boundary : SubjectMemoryBoundary) : boundary.digest ≠ "" := by
  intro h
  have hlength := congrArg String.length h
  rw [digest, jsonDigest, String.length_append] at hlength
  have hseven : "sha256:".length = 7 := rfl
  rw [hseven] at hlength
  exact absurd hlength (by rw [String.length_empty]; omega)

/-- The boundaries are about the same memory. -/
def SameSubject (boundary other : SubjectMemoryBoundary) : Prop :=
  boundary.tenantId = other.tenantId ∧ boundary.repositoryId = other.repositoryId ∧
    boundary.privateStoreId = other.privateStoreId

end SubjectMemoryBoundary

/-- `ScopedMemoryHandle`. -/
structure ScopedMemoryHandle where
  boundaryDigest : String
  role : String
  missionId : String
  permittedScopes : List String
  state : BoundaryState

/-- What a call raises: a `BoundaryError`, or an error of the store behind the namespace. -/
inductive NamespaceError where
  | boundary (message : String)
  | store (error : Exc)

section Memory

variable [Hash256] {α : Type}

/-- `ScopedMemoryHandle.assert_usable` raises nothing. -/
def ScopedMemoryHandle.Usable (handle : ScopedMemoryHandle) (boundary : SubjectMemoryBoundary) :
    Prop :=
  handle.boundaryDigest = boundary.digest ∧ handle.state = .active ∧ boundary.state = .active
deriving Decidable

/-! ## The namespace -/

/-- What a value is kept under. -/
structure MemoryKey where
  tenantId : String
  repositoryId : String
  name : String
  deriving DecidableEq

/-- `SubjectNamespace`. -/
structure SubjectNamespace (α : Type) where
  data : List (MemoryKey × α)
  states : List (String × BoundaryState)
  boundaries : Option ContractStore

namespace SubjectNamespace

def key (boundary : SubjectMemoryBoundary) (name : String) : MemoryKey :=
  ⟨boundary.tenantId, boundary.repositoryId, name⟩

/-- The state that counts for a boundary: `self._states.get(boundary.digest, boundary.state)`. -/
def effectiveState (space : SubjectNamespace α) (boundary : SubjectMemoryBoundary) :
    BoundaryState :=
  (space.states.lookup boundary.digest).getD boundary.state

/-- A name that is not refused. -/
def IsName (name : String) : Prop :=
  name ≠ "" ∧ name.toList.head? ≠ some '/' ∧ ['.', '.'] ∉ splitOn '/' name.toList
deriving Decidable

/-- `SubjectNamespace.put`. An error of the store comes after the value was put. -/
def put (space : SubjectNamespace α) (boundary : SubjectMemoryBoundary) (name : String)
    (value : α) : Except NamespaceError Unit × SubjectNamespace α :=
  if space.effectiveState boundary ≠ .bound ∧ space.effectiveState boundary ≠ .active then
    (.error (.boundary "boundary is inactive"), space)
  else if ¬IsName name then (.error (.boundary "invalid namespace key"), space)
  else
    let space := { space with data := Dicts.setItem (key boundary name) value space.data }
    match space.boundaries with
    | none => (.ok (), space)
    | some store =>
      match store.put boundary.digest boundary.document with
      | .error e => (.error (.store e), space)
      | .ok store => (.ok (), { space with boundaries := some store })

/-- `SubjectNamespace.get`. -/
def get (space : SubjectNamespace α) (handle : ScopedMemoryHandle)
    (boundary : SubjectMemoryBoundary) (name : String) : Except NamespaceError (Option α) :=
  if ¬handle.Usable boundary then
    .error (.boundary "memory handle is not valid for this subject")
  else if space.effectiveState boundary = .revoked ∨
      space.effectiveState boundary = .quarantined then
    .error (.boundary "memory boundary has been revoked or quarantined")
  else .ok (space.data.lookup (key boundary name))

/-- `SubjectNamespace.revoke`. -/
def revoke (space : SubjectNamespace α) (boundary : SubjectMemoryBoundary) : SubjectNamespace α :=
  { space with states := Dicts.setItem boundary.digest .revoked space.states }

/-- `SubjectNamespace(path)`, another time on the same path. -/
def reopen (space : SubjectNamespace α) : Except NamespaceError (SubjectNamespace α) :=
  match space.boundaries with
  | none => .ok ⟨[], [], none⟩
  | some store =>
    match ContractStore.openFile store.file with
    | .error e => .error (.store e)
    | .ok store => .ok ⟨[], [], some store⟩

end SubjectNamespace

/-! ## Runs -/

inductive MemoryCall (α : Type) where
  | put (boundary : SubjectMemoryBoundary) (name : String) (value : α)
  | get (handle : ScopedMemoryHandle) (boundary : SubjectMemoryBoundary) (name : String)
  | revoke (boundary : SubjectMemoryBoundary)
  | reopen

/-- A namespace together with what has happened to it: the boundaries that were revoked at any
time, those of them that were since the last start, and the last value that was put for each key
since then, with the boundary it was put under. -/
structure Watched (α : Type) where
  space : SubjectNamespace α
  revoked : List SubjectMemoryBoundary
  recent : List SubjectMemoryBoundary
  stored : List (MemoryKey × SubjectMemoryBoundary × α)

namespace Watched

/-- A new namespace, with a store at a path where nothing is, or without one. -/
def fresh (boundaries : Bool) : Watched α :=
  ⟨⟨[], [], if boundaries then some ⟨none, []⟩ else none⟩, [], [], []⟩

def step (watched : Watched α) :
    MemoryCall α → Except NamespaceError (Option α) × Watched α
  | .put boundary name value =>
    match watched.space.put boundary name value with
    | (.error e, space) => (.error e, { watched with space })
    | (.ok (), space) =>
      let stored :=
        Dicts.setItem (SubjectNamespace.key boundary name) (boundary, value) watched.stored
      (.ok none, { watched with space, stored })
  | .get handle boundary name => (watched.space.get handle boundary name, watched)
  | .revoke boundary =>
    let revoked := boundary :: watched.revoked
    let recent := boundary :: watched.recent
    (.ok none, { watched with space := watched.space.revoke boundary, revoked, recent })
  | .reopen =>
    match watched.space.reopen with
    | .error e => (.error e, watched)
    | .ok space => (.ok none, { watched with space, recent := [], stored := [] })

/-- The subject of the boundary was revoked at some time. -/
def Barred (watched : Watched α) (boundary : SubjectMemoryBoundary) : Prop :=
  ∃ other ∈ watched.revoked, other.SameSubject boundary

/-- The boundary itself was revoked since the last start. -/
def Listed (watched : Watched α) (boundary : SubjectMemoryBoundary) : Prop :=
  ∃ other ∈ watched.recent, other.digest = boundary.digest

/-- Nothing is put or got for a subject that was revoked, and what is got was put for the same
subject. -/
def Safe (watched : Watched α) : MemoryCall α → Prop
  | .put boundary name value =>
    watched.Barred boundary → ∃ e, (watched.space.put boundary name value).1 = .error e
  | .get handle boundary name =>
    (watched.Barred boundary → ∃ e, watched.space.get handle boundary name = .error e) ∧
      ∀ value, watched.space.get handle boundary name = .ok (some value) →
        ∃ author, watched.stored.lookup (SubjectNamespace.key boundary name) =
          some (author, value) ∧ author.SameSubject boundary
  | _ => True

/-- A call about a revoked subject presents a boundary that was itself revoked since the last
start, or is no good for another reason, and a value is asked for with the private store that it
was put under. -/
def Presents (watched : Watched α) : MemoryCall α → Prop
  | .put boundary name _ => watched.Barred boundary →
    watched.Listed boundary ∨ boundary.state = .revoked ∨ boundary.state = .quarantined ∨
      ¬SubjectNamespace.IsName name
  | .get handle boundary name => handle.Usable boundary → ¬watched.Listed boundary →
    ¬watched.Barred boundary ∧
      ∀ author value, watched.stored.lookup (SubjectNamespace.key boundary name) =
        some (author, value) → author.privateStoreId = boundary.privateStoreId
  | _ => True

/-! ## What is tracked -/

/-- The namespace has the values and the revocations since the last start. -/
structure Tracks (watched : Watched α) : Prop where
  listed : ∀ other ∈ watched.recent, watched.space.states.lookup other.digest = some .revoked
  states : ∀ digest state, watched.space.states.lookup digest = some state →
    ∃ other ∈ watched.recent, other.digest = digest
  data : ∀ key, watched.space.data.lookup key = (watched.stored.lookup key).map Prod.snd
  author : ∀ key author value, watched.stored.lookup key = some (author, value) →
    author.tenantId = key.tenantId ∧ author.repositoryId = key.repositoryId
  kept : ∀ store, watched.space.boundaries = some store → store.Kept

theorem tracks_fresh (boundaries : Bool) : Tracks (fresh boundaries : Watched α) where
  listed _ h := nomatch h
  states _ _ h := nomatch h
  data _ := rfl
  author _ _ _ h := nomatch h
  kept store h := by
    rw [fresh] at h
    split at h
    · exact Option.some.inj h ▸ ContractStore.kept_empty
    · exact nomatch h

variable {watched : Watched α} {boundary : SubjectMemoryBoundary} {name : String} {value : α}

theorem Tracks.effectiveState_of_listed (h : Tracks watched) (hlisted : watched.Listed boundary) :
    watched.space.effectiveState boundary = .revoked := by
  obtain ⟨other, hother, hdigest⟩ := hlisted
  rw [SubjectNamespace.effectiveState, ← hdigest, h.listed other hother]
  rfl

theorem Tracks.effectiveState_of_not_listed (h : Tracks watched)
    (hlisted : ¬watched.Listed boundary) :
    watched.space.effectiveState boundary = boundary.state := by
  rw [SubjectNamespace.effectiveState]
  cases hstate : watched.space.states.lookup boundary.digest with
  | none => rfl
  | some state => exact absurd (h.states _ state hstate) hlisted

/-- A boundary is inactive if it is listed, and otherwise if it says so itself. -/
theorem Tracks.inactive_iff (h : Tracks watched) :
    watched.space.effectiveState boundary = .revoked ∨
        watched.space.effectiveState boundary = .quarantined ↔
      watched.Listed boundary ∨ boundary.state = .revoked ∨ boundary.state = .quarantined := by
  by_cases hlisted : watched.Listed boundary
  · exact iff_of_true (.inl (h.effectiveState_of_listed hlisted)) (.inl hlisted)
  · rw [h.effectiveState_of_not_listed hlisted, or_iff_right hlisted]

/-! ## Values that are put -/

/-- A value that is not refused is put, and the store takes the boundary. -/
theorem put_eq (space : SubjectNamespace α) (boundary : SubjectMemoryBoundary) (name : String)
    (value : α) (hstate : space.effectiveState boundary = .bound ∨
      space.effectiveState boundary = .active) (hname : SubjectNamespace.IsName name) :
    ∃ boundaries, space.put boundary name value = (.ok (), ⟨Dicts.setItem
      (SubjectNamespace.key boundary name) value space.data, space.states, boundaries⟩) ∧
      ((∀ store, space.boundaries = some store → store.Kept) →
        ∀ store, boundaries = some store → store.Kept) := by
  rw [SubjectNamespace.put, if_neg (by rw [not_and_or, not_not, not_not]; exact hstate),
    if_neg (not_not_intro hname)]
  cases space.boundaries with
  | none => exact ⟨none, rfl, fun _ _ h ↦ nomatch h⟩
  | some store =>
    have hput : store.put boundary.digest boundary.document = .ok _ :=
      store.put_eq_ok boundary.digest_ne_empty
    refine ⟨_, by simp only [hput]; rfl, fun hkept store' hstore' ↦ ?_⟩
    obtain rfl := Option.some.inj hstore'
    exact (hkept store rfl).put boundary.sorted_document hput

theorem put_of_not (space : SubjectNamespace α) (boundary : SubjectMemoryBoundary) (name : String)
    (value : α) (h : ¬((space.effectiveState boundary = .bound ∨
      space.effectiveState boundary = .active) ∧ SubjectNamespace.IsName name)) :
    ∃ e, space.put boundary name value = (.error e, space) := by
  rw [SubjectNamespace.put]
  split
  · exact ⟨_, rfl⟩
  next hstate =>
  rw [not_and_or, not_not, not_not] at hstate
  rw [if_pos fun hname ↦ h ⟨hstate, hname⟩]
  exact ⟨_, rfl⟩

/-- What is put is refused for the state that counts or for its name. -/
theorem Tracks.put_eq_error_iff (h : Tracks watched) :
    (∃ e, (watched.space.put boundary name value).1 = .error e) ↔
      watched.Listed boundary ∨ boundary.state = .revoked ∨ boundary.state = .quarantined ∨
        ¬SubjectNamespace.IsName name := by
  have hinactive : ¬(watched.space.effectiveState boundary = .bound ∨
      watched.space.effectiveState boundary = .active) ↔ _ :=
    (BoundaryState.inactive_iff _).trans h.inactive_iff
  rw [← or_assoc (c := ¬_), ← or_assoc, ← hinactive, ← not_and_or]
  by_cases hgood : (watched.space.effectiveState boundary = .bound ∨
      watched.space.effectiveState boundary = .active) ∧ SubjectNamespace.IsName name
  · obtain ⟨boundaries, hput, -⟩ := put_eq watched.space boundary name value hgood.1 hgood.2
    rw [hput]
    exact iff_of_false (fun ⟨_, he⟩ ↦ nomatch he) (not_not_intro hgood)
  · obtain ⟨e, hput⟩ := put_of_not watched.space boundary name value hgood
    rw [hput]
    exact iff_of_true ⟨e, rfl⟩ hgood

/-! ## Values that are got -/

/-- What is got is not refused if the handle is usable and the boundary is not listed. -/
theorem Tracks.get_eq (h : Tracks watched) {handle : ScopedMemoryHandle}
    (husable : handle.Usable boundary) (hlisted : ¬watched.Listed boundary) :
    watched.space.get handle boundary name =
      .ok ((watched.stored.lookup (SubjectNamespace.key boundary name)).map Prod.snd) := by
  rw [SubjectNamespace.get, if_neg (not_not_intro husable), if_neg, h.data]
  rw [h.effectiveState_of_not_listed hlisted, husable.2.2]
  exact fun hstate ↦ hstate.elim (nomatch ·) (nomatch ·)

theorem Tracks.get_of_not (h : Tracks watched) {handle : ScopedMemoryHandle}
    (hrefused : ¬handle.Usable boundary ∨ watched.Listed boundary) :
    ∃ e, watched.space.get handle boundary name = .error e := by
  rw [SubjectNamespace.get]
  split
  · exact ⟨_, rfl⟩
  next husable =>
  rw [if_pos (.inl (h.effectiveState_of_listed (hrefused.resolve_left husable)))]
  exact ⟨_, rfl⟩

/-! ## Every run -/

theorem Tracks.step (h : Tracks watched) (call : MemoryCall α) : Tracks (watched.step call).2 := by
  cases call with
  | get handle boundary name => exact h
  | put boundary name value =>
    rw [Watched.step]
    by_cases hgood : (watched.space.effectiveState boundary = .bound ∨
        watched.space.effectiveState boundary = .active) ∧ SubjectNamespace.IsName name
    · obtain ⟨boundaries, hput, hkept⟩ := put_eq watched.space boundary name value hgood.1 hgood.2
      rw [hput]
      refine ⟨h.listed, h.states, fun key ↦ ?_, fun key author value' hlookup ↦ ?_, hkept h.kept⟩
      · simp only [Dicts.lookup_setItem, h.data]
        split
        · rfl
        · rfl
      · replace hlookup := (Dicts.lookup_setItem ..).symm.trans hlookup
        split at hlookup
        · next hkey =>
          obtain ⟨rfl, rfl⟩ := Prod.mk.inj (Option.some.inj hlookup)
          rw [hkey]
          exact ⟨rfl, rfl⟩
        · exact h.author key author value' hlookup
    · obtain ⟨e, hput⟩ := put_of_not watched.space boundary name value hgood
      rw [hput]
      exact h
  | revoke boundary =>
    refine ⟨fun other hother ↦ ?_, fun digest state hstate ↦ ?_, h.data, h.author, h.kept⟩
    · have hlookup := Dicts.lookup_setItem boundary.digest other.digest BoundaryState.revoked
        watched.space.states
      refine hlookup.trans ?_
      by_cases hdigest : other.digest = boundary.digest
      · rw [if_pos hdigest]
      · rw [if_neg hdigest]
        rcases List.mem_cons.mp hother with rfl | hother
        · exact absurd rfl hdigest
        · exact h.listed other hother
    · have hlookup := Dicts.lookup_setItem boundary.digest digest BoundaryState.revoked
        watched.space.states
      replace hstate := hlookup.symm.trans hstate
      by_cases hdigest : digest = boundary.digest
      · exact ⟨boundary, List.mem_cons_self, hdigest.symm⟩
      · rw [if_neg hdigest] at hstate
        obtain ⟨other, hother, heq⟩ := h.states digest state hstate
        exact ⟨other, List.mem_cons_of_mem boundary hother, heq⟩
  | reopen =>
    have hempty : ∀ boundaries : Option ContractStore,
        (∀ store, boundaries = some store → store.Kept) →
        Tracks (α := α) ⟨⟨[], [], boundaries⟩, watched.revoked, [], []⟩ := fun boundaries hkept ↦
      ⟨nofun, nofun, fun _ ↦ rfl, nofun, hkept⟩
    rw [Watched.step, SubjectNamespace.reopen]
    cases hboundaries : watched.space.boundaries with
    | none => exact hempty none fun _ hstore ↦ nomatch hstore
    | some store =>
      obtain ⟨store', hopen, hkept, -⟩ := (h.kept store hboundaries).reopen
      simp only [hopen]
      exact hempty (some store') fun _ hstore ↦ Option.some.inj hstore ▸ hkept

theorem Tracks.step_safe_iff (h : Tracks watched) (call : MemoryCall α) :
    watched.Safe call ↔ watched.Presents call := by
  cases call with
  | revoke boundary => exact Iff.rfl
  | reopen => exact Iff.rfl
  | put boundary name value => exact imp_congr_right fun _ ↦ h.put_eq_error_iff
  | get handle boundary name =>
    rw [Safe, Presents]
    by_cases hgood : handle.Usable boundary ∧ ¬watched.Listed boundary
    · rw [h.get_eq hgood.1 hgood.2]
      have hbarred : (watched.Barred boundary → ∃ e : NamespaceError,
          (Except.ok ((watched.stored.lookup (SubjectNamespace.key boundary name)).map Prod.snd) :
            Except NamespaceError (Option α)) = .error e) ↔ ¬watched.Barred boundary :=
        imp_congr_right fun _ ↦ iff_of_false (fun ⟨_, he⟩ ↦ nomatch he) id
      rw [hbarred, imp_iff_right hgood.1, imp_iff_right hgood.2]
      refine and_congr_right fun _ ↦ ⟨fun hsafe author value hlookup ↦ ?_,
        fun hpresents value hvalue ↦ ?_⟩
      · obtain ⟨author', hlookup', hsame⟩ := hsafe value (by rw [hlookup]; rfl)
        rw [hlookup, Option.some.injEq, Prod.mk.injEq] at hlookup'
        exact hlookup'.1 ▸ hsame.2.2
      · obtain ⟨⟨author, value'⟩, hlookup, rfl⟩ := Option.map_eq_some_iff.mp (Except.ok.inj hvalue)
        have hauthor := h.author _ author value' hlookup
        exact ⟨author, hlookup, hauthor.1, hauthor.2, hpresents author value' hlookup⟩
    · have hrefused : ∃ e, watched.space.get handle boundary name = .error e :=
        h.get_of_not (by rw [← not_not (a := watched.Listed _), ← not_and_or]; exact hgood)
      obtain ⟨e, hget⟩ := hrefused
      rw [hget]
      exact iff_of_true ⟨fun _ ↦ ⟨e, rfl⟩, fun _ hvalue ↦ nomatch hvalue⟩
        fun husable hlisted ↦ absurd ⟨husable, hlisted⟩ hgood

end Watched

/-- In every run, subjects are kept apart and revoked subjects kept out exactly when each call
about a revoked subject presents a boundary that was itself revoked since the last start or is
refused on other grounds, and no value is asked for with another private store. -/
theorem namespace_safe_iff (boundaries : Bool) (calls : List (MemoryCall α)) :
    Always Watched.step Watched.Safe (Watched.fresh boundaries) calls ↔
      Always Watched.step Watched.Presents (Watched.fresh boundaries) calls :=
  always_congr (fun _ call h ↦ Watched.Tracks.step h call) (fun _ call h ↦ Watched.Tracks.step_safe_iff h call)
    (Watched.tracks_fresh boundaries)

/-- A boundary of the tenant's repository with the given private store. -/
def activeBoundary (privateStoreId : String) (h : isRequired privateStoreId = true) :
    SubjectMemoryBoundary where
  tenantId := "tenant"
  repositoryId := "repository"
  privateStoreId
  cachePartitionId := "cache"
  loggingPartitionId := "logs"
  providerPolicyDigest := "provider"
  encryptionProfileId := "profile"
  retentionPolicyDigest := "retention"
  state := .active
  identified := by
    simp only [List.forall_mem_cons, h]
    decide

/-- A value comes back for another private store, and a restart ends a revocation. -/
private theorem not_safe :
    let first := activeBoundary "first" (by decide)
    let second := activeBoundary "second" (by decide)
    ¬Always Watched.step Watched.Safe (Watched.fresh true)
        [.put first "note" (), .get ⟨second.digest, "", "", [], .active⟩ second "note"] ∧
      ¬Always Watched.step Watched.Safe (Watched.fresh true)
        [.revoke first, .reopen, .put first "note" ()] := by
  intro first second
  obtain ⟨boundaries, hput, -⟩ :=
    Watched.put_eq ⟨[], [], some ⟨none, []⟩⟩ first "note" () (.inr rfl) (by decide)
  refine ⟨fun h ↦ ?_, fun h ↦ ?_⟩
  · have hget := h.2.1.2 ()
    simp only [Watched.step, Watched.fresh, if_true, hput] at hget
    obtain ⟨author, hstored, hsame⟩ := hget (by
      rw [SubjectNamespace.get, if_neg (not_not_intro ⟨rfl, rfl, rfl⟩)]
      rfl)
    obtain rfl := congrArg Prod.fst (Option.some.inj hstored)
    exact absurd hsame.2.2 (by decide)
  · obtain ⟨e, herror⟩ := h.2.2.1 ⟨first, List.mem_cons_self, rfl, rfl, rfl⟩
    exact nomatch (congrArg Prod.fst hput).symm.trans herror

end Memory

theorem namespace_unsafe :
    let first := activeBoundary "first" (by decide)
    let second := activeBoundary "second" (by decide)
    ¬Always Watched.step Watched.Safe (Watched.fresh true)
        [.put first "note" (), .get ⟨second.digest, "", "", [], .active⟩ second "note"] ∧
      ¬Always Watched.step Watched.Safe (Watched.fresh true)
        [.revoke first, .reopen, .put first "note" ()] :=
  not_safe

end HiveMind.Durable
