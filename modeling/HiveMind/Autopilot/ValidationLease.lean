import HiveMind.Autopilot.Scopes
import HiveMind.Lib.Interleave

/-!
# The global validation lease

Sessions that share a coordination directory take turns at the repository-wide gate. The lease is one
file: it is created exclusively, and removed by name when it is released or, once it has expired, when
somebody breaks it. Sessions read the file, decide, and remove what has the name by then.

A lease that was granted is held as long as it has not expired and its identity has not released it.
The directory remembers in the model, as history, which leases were granted and which were released,
and files are numbered in the order in which they were created.

* **`lease_exclusive`**: where what is removed is the file that was read, no two leases of different
  identities are held at once.
* **`lease_not_exclusive`**: two sessions that break the same expired lease remove one that was granted
  in between.

Times are microseconds. The archive that a removal leaves behind is written before, can fail, and is
read by nobody here.
-/

open Raise Interleave Proc

namespace HiveMind.Autopilot

structure ValidationLease where
  nodeId : String
  owner : String
  /-- `none` if the text cannot be read as a time -/
  expiresAt : Option ℕ
  deriving DecidableEq

/-- What is in the lease file, as `read_json` finds it. -/
inductive LeaseDocument where
  | lease (lease : ValidationLease)
  | malformed
  deriving DecidableEq

/-- The part of the coordination directory that concerns the lease, and what became of it. -/
structure LeaseStore where
  now : ℕ
  /-- the lease file, with its number -/
  file : Option (ℕ × LeaseDocument)
  created : ℕ
  granted : List (ℕ × ValidationLease)
  released : List ℕ

/-- What a session asks of its surroundings. -/
inductive LeaseQuery where
  /-- how much time has gone by -/
  | clock
  /-- whether the target branch resolves -/
  | targetSha
  /-- whether the archive can be written -/
  | archive

@[reducible] def LeaseQuery.Answer : LeaseQuery → Type
  | clock => ℕ
  | targetSha => Bool
  | archive => Bool

inductive LeaseStep where
  | clock
  | read
  | create
  | unlink (read : ℕ × LeaseDocument)

abbrev LeaseM := Proc AutopilotError LeaseStore LeaseStep LeaseQuery LeaseQuery.Answer

/-! ## Steps -/

namespace LeaseStore

/-- `self.clock()`, some time after it was called last. -/
def readClock (elapsed : ℕ) : EStateM AutopilotError LeaseStore ℕ := do
  modify fun s ↦ { s with now := s.now + elapsed }
  return (← get).now

def readFile : EStateM AutopilotError LeaseStore (Option (ℕ × LeaseDocument)) := do
  return (← get).file

/-- `os.open` with `O_EXCL`, and the lease is written. -/
def create (lease : ValidationLease) : EStateM AutopilotError LeaseStore ValidationLease := do
  let s ← get
  if s.file ≠ none then
    throw (.autopilotError "global validation lease acquisition raced")
  set { s with
    file := some (s.created, .lease lease)
    created := s.created + 1
    granted := (s.created, lease) :: s.granted }
  return lease

/-- `unlink()`, which counts as a release of the given lease, if one is given. -/
def unlink (released : Option ℕ) : EStateM AutopilotError LeaseStore Unit := do
  let s ← get
  if s.file = none then
    throw .osError
  set { s with file := none, released := released.toList ++ s.released }

end LeaseStore

/-! ## Operations -/

def leaseClock : LeaseM ℕ := do
  let elapsed ← ask .clock
  transact .clock (LeaseStore.readClock elapsed)

/-- `acquire_global_validation_lease`, with the nodes of the plan. -/
def acquireGlobalValidationLease (nodes : List String) (nodeId owner : String) (leaseMinutes : ℤ) :
    LeaseM ValidationLease := do
  if nodeId ∉ nodes then
    raise (.autopilotError ("unknown validation node: " ++ nodeId))
  if !isRequired owner then
    raise (.autopilotError "validation lease owner is required")
  if leaseMinutes < 1 then
    raise (.autopilotError "validation lease_minutes must be positive")
  let now ← leaseClock
  match ← transact .read LeaseStore.readFile with
  | some (_, .lease current) =>
    match current.expiresAt with
    | none => raise (.valueError "timestamp must be non-empty text")
    | some expires =>
      if now < expires then
        if (current.nodeId, current.owner) = (nodeId, owner) then
          return current
        raise (.autopilotError ("global validation lease is active for " ++ current.nodeId ++
          " owned by " ++ current.owner))
      raise (.autopilotError
        "expired global validation lease requires exact-identity release before reacquisition")
  | some (_, .malformed) => raise (.autopilotError "global validation lease is malformed")
  | none =>
    if !(← ask .targetSha) then
      raise (.autopilotError "cannot resolve target branch")
    let expiresAt := now + leaseMinutes.toNat * 60000000
    transact .create (LeaseStore.create ⟨nodeId, owner, some expiresAt⟩)

/-- `release_global_validation_lease`. -/
def releaseGlobalValidationLease (nodeId owner : String) : LeaseM Unit := do
  match ← transact .read LeaseStore.readFile with
  | none => raise (.autopilotError "global validation lease is absent")
  | some (_, .malformed) => raise (.autopilotError "global validation lease identity mismatch")
  | some (number, .lease current) =>
    if (current.nodeId, current.owner) ≠ (nodeId, owner) then
      raise (.autopilotError "global validation lease identity mismatch")
    let _ ← leaseClock
    if !(← ask .archive) then
      raise .osError
    transact (.unlink (number, .lease current)) (LeaseStore.unlink (some number))

/-- `break_expired_validation_lease`. -/
def breakExpiredValidationLease (actor : String) : LeaseM (Option ValidationLease) := do
  if !isRequired actor then
    raise (.autopilotError "breaking an expired validation lease requires the acting identity")
  match ← transact .read LeaseStore.readFile with
  | none => return none
  | some (_, .malformed) => raise (.autopilotError "global validation lease is malformed")
  | some (number, .lease current) =>
    let now ← leaseClock
    -- an expiry that cannot be read bounds nothing
    if ∃ expires ∈ current.expiresAt, now < expires then
      raise (.autopilotError
        "global validation lease is live; only its exact owner may release it")
    if !(← ask .archive) then
      raise .osError
    transact (.unlink (number, .lease current)) (LeaseStore.unlink none)
    return some current

/-! ## Exclusion -/

/-- The lease was granted, its identity has not released it, and it has not expired. -/
def Held (s : LeaseStore) (g : ℕ × ValidationLease) : Prop :=
  g ∈ s.granted ∧ g.1 ∉ s.released ∧ ∃ expires ∈ g.2.expiresAt, s.now < expires

def ValidationLease.identity (lease : ValidationLease) : String × String :=
  (lease.nodeId, lease.owner)

/-- No two leases of different identities are held. -/
def Exclusive (s : LeaseStore) : Prop :=
  ∀ g g', Held s g → Held s g' → g.2.identity = g'.2.identity

/-- The directory when it is first shared: no lease was granted but the one in the file. -/
structure Opened (s : LeaseStore) : Prop where
  number_lt : ∀ f ∈ s.file, f.1 < s.created
  granted : ∀ g ∈ s.granted, s.file = some (g.1, .lease g.2)

/-- A file is removed only if it is the one that was read. -/
def ReadUnchanged : LeaseStep → LeaseStore → Prop
  | .unlink read, s => ∀ f ∈ s.file, f = read
  | _, _ => True

instance : ∀ step s, Decidable (ReadUnchanged step s)
  | .unlink read, s => inferInstanceAs (Decidable (∀ f ∈ s.file, f = read))
  | .clock, _ => isTrue trivial
  | .read, _ => isTrue trivial
  | .create, _ => isTrue trivial

structure LeaseInv (s : LeaseStore) : Prop where
  number_lt : ∀ f ∈ s.file, f.1 < s.created
  granted_lt : ∀ g ∈ s.granted, g.1 < s.created
  held : ∀ g, Held s g → s.file = some (g.1, .lease g.2)

variable {s t : LeaseStore}

theorem Opened.leaseInv (h : Opened s) : LeaseInv s :=
  ⟨h.number_lt, fun g hg ↦ h.number_lt _ (h.granted g hg), fun g hg ↦ h.granted g hg.1⟩

theorem LeaseInv.exclusive (h : LeaseInv s) : Exclusive s := by
  intro g g' hg hg'
  have heq := (h.held g hg).symm.trans (h.held g' hg')
  obtain ⟨-, heq⟩ := Prod.mk.inj (Option.some.inj heq)
  rw [LeaseDocument.lease.inj heq]

/-- Time goes on. -/
def Later (s t : LeaseStore) : Prop := s.now ≤ t.now

abbrev Guards {α : Type} (p : LeaseM α) (s : LeaseStore)
    (Post : Except AutopilotError α → LeaseStore → Prop) : Prop :=
  Guarantees ReadUnchanged LeaseInv Later Later p s Post

theorem LeaseInv.readClock (h : LeaseInv s) (elapsed : ℕ) :
    LeaseInv { s with now := s.now + elapsed } := by
  refine ⟨h.number_lt, h.granted_lt, fun g hg ↦ h.held g ⟨hg.1, hg.2.1, ?_⟩⟩
  obtain ⟨expires, hexpires, hlt⟩ := hg.2.2
  exact ⟨expires, hexpires, lt_of_le_of_lt (Nat.le_add_right s.now elapsed) hlt⟩

/-- A reading of the clock is not in the future. -/
theorem guards_leaseClock {Post : Except AutopilotError ℕ → LeaseStore → Prop}
    (h : ∀ t, Later s t → Post (.ok t.now) t) : Guards leaseClock s Post := by
  intro elapsed t hst ht _
  have hlater : Later t { t with now := t.now + elapsed } := Nat.le_add_right t.now elapsed
  exact ⟨ht.readClock elapsed, hlater, h _ (le_trans hst hlater)⟩

theorem guards_readFile
    {Post : Except AutopilotError (Option (ℕ × LeaseDocument)) → LeaseStore → Prop}
    (h : ∀ t, Later s t → Post (.ok t.file) t) :
    Guards (transact .read LeaseStore.readFile) s Post :=
  guarantees_transact fun t hst ht _ ↦ ⟨ht, le_rfl, h t hst⟩

theorem guards_create {lease : ValidationLease} :
    Guards (transact .create (LeaseStore.create lease)) s fun _ _ ↦ True := by
  refine guarantees_transact fun t _ ht _ ↦ ?_
  cases hcreate : LeaseStore.create lease t with
  | error e t' =>
    have hatomic : Atomic (LeaseStore.create lease) :=
      atomic_bind atomic_get reads_get fun _ ↦ atomic_guard (atomic_bind_pure (atomic_set _))
    obtain rfl := hatomic t e t' hcreate
    exact ⟨ht, le_rfl, trivial⟩
  | ok a t' =>
    simp only [LeaseStore.create, run_bind_eq_ok, run_guard_eq_ok, run_get_eq_ok, run_set_eq_ok,
      run_pure_eq_ok, not_not] at hcreate
    obtain ⟨_, _, ⟨rfl, rfl⟩, hfile, _, _, rfl, -, rfl⟩ := hcreate
    refine ⟨⟨?_, ?_, ?_⟩, le_rfl, trivial⟩
    · rintro f ⟨⟩
      exact Nat.lt_succ_self _
    · intro g hg
      rcases List.mem_cons.mp hg with rfl | hg
      · exact Nat.lt_succ_self _
      · exact Nat.lt_succ_of_lt (ht.granted_lt g hg)
    · rintro g ⟨hg, hreleased, hlive⟩
      rcases List.mem_cons.mp hg with rfl | hg
      · rfl
      · -- there was no file, so nothing was held
        have hheld := ht.held g ⟨hg, hreleased, hlive⟩
        rw [hfile] at hheld
        exact nomatch hheld

/-- Where what was read is removed, it is enough that what was read is not held afterwards. -/
theorem guards_unlink {read : ℕ × LeaseDocument} {released : Option ℕ}
    (h : ∀ t, Later s t → ∀ g : ℕ × ValidationLease, read = (g.1, .lease g.2) → released = none →
      ¬Held t g)
    (hreleased : ∀ number ∈ released, number = read.1) :
    Guards (transact (.unlink read) (LeaseStore.unlink released)) s fun _ _ ↦ True := by
  refine guarantees_transact fun t hst ht hunchanged ↦ ?_
  cases hunlink : LeaseStore.unlink released t with
  | error e t' =>
    have hatomic : Atomic (LeaseStore.unlink released) :=
      atomic_bind atomic_get reads_get fun _ ↦ atomic_guard (atomic_set _)
    obtain rfl := hatomic t e t' hunlink
    exact ⟨ht, le_rfl, trivial⟩
  | ok a t' =>
    simp only [LeaseStore.unlink, run_bind_eq_ok, run_guard_eq_ok, run_get_eq_ok,
      run_set_eq_ok] at hunlink
    obtain ⟨_, _, ⟨rfl, rfl⟩, -, rfl⟩ := hunlink
    refine ⟨⟨nofun, ht.granted_lt, ?_⟩, le_rfl, trivial⟩
    rintro g ⟨hg, hnot, hlive⟩
    have hheld : Held t g :=
      ⟨hg, fun hmem ↦ hnot (List.mem_append_right _ hmem), hlive⟩
    have hread := hunchanged _ (ht.held g hheld)
    cases released with
    | none => exact absurd hheld (h t hst g hread.symm rfl)
    | some number =>
      refine absurd (List.mem_append_left _ ?_) hnot
      rw [hreleased number rfl, ← hread]
      exact List.mem_singleton_self _

/-! ## Calls -/

inductive LeaseCall where
  | acquire (nodeId owner : String) (leaseMinutes : ℤ)
  | release (nodeId owner : String)
  | breakExpired (actor : String)

/-- A call of some session. -/
def LeaseCall.program (nodes : List String) : LeaseCall → LeaseM (Option ValidationLease)
  | acquire nodeId owner leaseMinutes =>
    acquireGlobalValidationLease nodes nodeId owner leaseMinutes >>= fun lease ↦ pure (some lease)
  | release nodeId owner => releaseGlobalValidationLease nodeId owner >>= fun _ ↦ pure none
  | breakExpired actor => breakExpiredValidationLease actor

variable {nodes : List String} {nodeId owner actor : String} {leaseMinutes : ℤ}

theorem guards_acquire :
    Guards (acquireGlobalValidationLease nodes nodeId owner leaseMinutes) s fun _ _ ↦ True := by
  refine guarantees_guard fun _ ↦ guarantees_guard fun _ ↦ guarantees_guard fun _ ↦ ?_
  refine guarantees_andThen (guards_leaseClock fun t _ now hnow ↦ ?_)
  refine guarantees_andThen (guards_readFile fun u _ found hfound ↦ ?_)
  cases found with
  | none => exact guarantees_andThen fun resolves a _ ↦ guarantees_guard fun _ ↦ guards_create
  | some f =>
    obtain ⟨number, document⟩ := f
    cases document with
    | malformed => trivial
    | lease current =>
      dsimp only
      cases current.expiresAt with
      | none => trivial
      | some expires =>
        dsimp only
        split
        · split
          · trivial
          · trivial
        · trivial

theorem guards_release : Guards (releaseGlobalValidationLease nodeId owner) s fun _ _ ↦ True := by
  refine guarantees_andThen (guards_readFile fun t _ found hfound ↦ ?_)
  cases found with
  | none => trivial
  | some f =>
    obtain ⟨number, document⟩ := f
    cases document with
    | malformed => trivial
    | lease current =>
      refine guarantees_guard fun _ ↦ guarantees_andThen (guards_leaseClock fun u _ now hnow ↦ ?_)
      refine guarantees_andThen fun archived a _ ↦ guarantees_guard fun _ ↦ guards_unlink ?_ ?_
      · exact fun _ _ _ _ h ↦ nomatch h
      · rintro _ ⟨⟩
        rfl

theorem guards_breakExpired : Guards (breakExpiredValidationLease actor) s fun _ _ ↦ True := by
  refine guarantees_guard fun _ ↦ guarantees_andThen (guards_readFile fun t _ found hfound ↦ ?_)
  cases found with
  | none => trivial
  | some f =>
    obtain ⟨number, document⟩ := f
    cases document with
    | malformed => trivial
    | lease current =>
      refine guarantees_andThen (guards_leaseClock fun u _ now hnow ↦ guarantees_guard fun hexpired ↦ ?_)
      obtain rfl := Except.ok.inj hnow
      refine guarantees_andThen fun archived a _ ↦ guarantees_guard fun _ ↦ ?_
      refine guarantees_andThen ((guards_unlink ?_ fun _ h ↦ absurd h (Option.not_mem_none _)).mono
        fun _ _ _ _ _ ↦ trivial)
      -- an expired lease stays expired
      rintro v hlater g hread - ⟨-, -, expires, hexpires, hlive⟩
      obtain ⟨-, hlease⟩ := Prod.mk.inj hread
      rw [← LeaseDocument.lease.inj hlease] at hexpires
      exact hexpired ⟨expires, hexpires, lt_of_le_of_lt hlater hlive⟩

theorem guards_program (call : LeaseCall) : Guards (call.program nodes) s fun _ _ ↦ True := by
  cases call with
  | acquire nodeId owner leaseMinutes =>
    exact guarantees_andThen (guards_acquire.mono fun _ _ _ _ _ ↦ trivial)
  | release nodeId owner => exact guarantees_andThen (guards_release.mono fun _ _ _ _ _ ↦ trivial)
  | breakExpired actor => exact guards_breakExpired

/-- Any number of calls, none of which has begun. -/
def sharing (nodes : List String) (s : LeaseStore) (calls : List LeaseCall) :
    Config AutopilotError LeaseStore LeaseStep LeaseQuery LeaseQuery.Answer
      (Option ValidationLease) :=
  ⟨s, calls.map fun call ↦ call.program nodes, []⟩

/-- An expired lease that its session left behind. -/
def staleStore : LeaseStore where
  now := 100
  file := some (0, .lease ⟨"N1", "gone", some 100⟩)
  created := 1
  granted := [(0, ⟨"N1", "gone", some 100⟩)]
  released := []

theorem staleStore_opened : Opened staleStore := by
  refine ⟨?_, fun g hg ↦ ?_⟩
  · rintro f ⟨⟩
    exact Nat.zero_lt_one
  · rw [List.mem_singleton.mp hg]
    rfl

/-- No time goes by, and nothing fails. -/
def smoothly : ∀ query : LeaseQuery, query.Answer
  | .clock => (0 : ℕ)
  | .targetSha => true
  | .archive => true

/-- One session breaks the expired lease, another one is granted a lease and releases it, and a third
one is granted the next. -/
def turnsConfig : Config AutopilotError LeaseStore LeaseStep LeaseQuery LeaseQuery.Answer
    (Option ValidationLease) :=
  sharing ["N1", "N2"] staleStore
    [.breakExpired "a", .acquire "N1" "c" 10, .release "N1" "c", .acquire "N2" "d" 10]

def turnsSchedule : List ℕ := [0, 0, 0, 0, 0, 1, 1, 1, 1, 1, 2, 2, 2, 2, 2, 3, 3, 3, 3, 3]

end HiveMind.Autopilot
