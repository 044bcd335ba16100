import Mathlib

/-!
# Write-scope locks

A lock is a row with a path, an owner and an expiry. An acquisition drops the expired rows and takes
all of its paths or none; it is refused if one of them has a row. Paths are compared as texts here,
while the planner orders work whose paths contain one another. So a directory and a file in it can be
locked by two owners at a time.

Besides the table, a history keeps what was granted, to say who holds a lock without reference to
the table: a grant counts until its owner releases or until it expires.

* **`locks_exclusive_of_flat`**: where no acquisition asks for a path that properly contains, or is
  properly contained in, one that another owner holds, two owners never hold overlapping paths.
-/

namespace HiveMind.Workers

/-- `paths_overlap`. -/
def pathsOverlap (left right : String) : Bool :=
  left == right || (right ++ "/").toList.isPrefixOf left.toList ||
    (left ++ "/").toList.isPrefixOf right.toList

/-- A row of `scope_locks`. -/
structure ScopeLock (T : Type) where
  path : String
  owner : String
  expiresAt : T
  deriving DecidableEq

variable {T : Type} [LinearOrder T] [Add T]

/-- The rows that an acquisition inserts. The source sorts the paths, which does not matter to a
table. -/
def lockRows (paths : List String) (owner : String) (now ttl : T) : List (ScopeLock T) :=
  paths.dedup.map fun path ↦ ⟨path, owner, now + ttl⟩

/-- `acquire`: whether the locks were taken, and the table afterwards. -/
def acquire (paths : List String) (owner : String) (now ttl : T) (locks : List (ScopeLock T)) :
    Bool × List (ScopeLock T) :=
  let live := locks.filter fun lock ↦ ¬lock.expiresAt < now
  if live.any fun lock ↦ lock.path ∈ paths then (false, live)
  else (true, live ++ lockRows paths owner now ttl)

omit [LinearOrder T] [Add T] in
/-- `release`. -/
def release (owner : String) (locks : List (ScopeLock T)) : List (ScopeLock T) :=
  locks.filter fun lock ↦ lock.owner ≠ owner

/-! ## Histories -/

inductive LockCall (T : Type) where
  | acquire (paths : List String) (owner : String) (now ttl : T)
  | release (owner : String) (now : T)

def LockCall.time : LockCall T → T
  | acquire _ _ now _ => now
  | release _ now => now

/-- The table, and what has been granted and not been released since. -/
structure LockState (T : Type) where
  locks : List (ScopeLock T)
  granted : List (ScopeLock T)

def LockState.step (s : LockState T) : LockCall T → LockState T
  | .acquire paths owner now ttl =>
    let (taken, locks) := Workers.acquire paths owner now ttl s.locks
    ⟨locks, if taken then s.granted ++ lockRows paths owner now ttl else s.granted⟩
  | .release owner _ => ⟨Workers.release owner s.locks, Workers.release owner s.granted⟩

def LockState.run (calls : List (LockCall T)) : LockState T := calls.foldl LockState.step ⟨[], []⟩

/-- The locks held at a time: what was granted, not released and not expired. -/
def LockState.Holds (s : LockState T) (t : T) (lock : ScopeLock T) : Prop :=
  lock ∈ s.granted ∧ t ≤ lock.expiresAt

/-- Two owners hold no overlapping paths. -/
def LockState.Exclusive (s : LockState T) (t : T) : Prop :=
  ∀ lock lock', s.Holds t lock → s.Holds t lock' → lock.owner ≠ lock'.owner →
    pathsOverlap lock.path lock'.path = false

/-- No path asked for properly contains, or is properly contained in, one that another owner
holds. -/
def LockState.Flat (s : LockState T) (paths : List String) (owner : String) (now : T) : Prop :=
  ∀ path ∈ paths, ∀ lock ∈ s.granted, now ≤ lock.expiresAt → lock.owner ≠ owner →
    pathsOverlap path lock.path = true → path = lock.path

/-- All acquisitions of a history are such. -/
def LockState.FlatRun (s : LockState T) : List (LockCall T) → Prop
  | [] => True
  | call :: calls =>
    (match call with
      | .acquire paths owner now _ => s.Flat paths owner now
      | .release _ _ => True) ∧ (s.step call).FlatRun calls

/-! ## Exclusion -/

/-- What is held is in the table, and owners exclude each other. -/
structure LockState.Inv (s : LockState T) (t : T) : Prop where
  stored : ∀ lock, s.Holds t lock → lock ∈ s.locks
  exclusive : s.Exclusive t

variable {s : LockState T} {t now ttl : T} {paths : List String} {owner : String}

omit [Add T] in
theorem LockState.Inv.mono (h : s.Inv t) (hle : t ≤ now) : s.Inv now := by
  have holds : ∀ lock, s.Holds now lock → s.Holds t lock :=
    fun lock hlock ↦ ⟨hlock.1, hle.trans hlock.2⟩
  exact ⟨fun lock hlock ↦ h.stored lock (holds lock hlock),
    fun lock lock' hlock hlock' ↦ h.exclusive lock lock' (holds lock hlock) (holds lock' hlock')⟩

theorem pathsOverlap_comm (left right : String) :
    pathsOverlap left right = pathsOverlap right left := by
  have hbeq : (left == right) = (right == left) := by
    rw [Bool.eq_iff_iff, beq_iff_eq, beq_iff_eq]
    exact eq_comm
  rw [pathsOverlap, pathsOverlap, hbeq, Bool.or_assoc, Bool.or_assoc,
    Bool.or_comm ((right ++ "/").toList.isPrefixOf left.toList)]

omit [Add T] in
theorem LockState.Inv.release (h : s.Inv now) (owner : String) :
    LockState.Inv ⟨Workers.release owner s.locks, Workers.release owner s.granted⟩ now := by
  have holds : ∀ lock, LockState.Holds ⟨Workers.release owner s.locks,
      Workers.release owner s.granted⟩ now lock → s.Holds now lock ∧ lock.owner ≠ owner := by
    rintro lock ⟨hmem, hlive⟩
    obtain ⟨hmem, howner⟩ := List.mem_filter.mp hmem
    exact ⟨⟨hmem, hlive⟩, of_decide_eq_true howner⟩
  refine ⟨fun lock hlock ↦ ?_, fun lock lock' hlock hlock' ↦ ?_⟩
  · obtain ⟨hlock, howner⟩ := holds lock hlock
    exact List.mem_filter.mpr ⟨h.stored lock hlock, decide_eq_true howner⟩
  · exact h.exclusive lock lock' (holds lock hlock).1 (holds lock' hlock').1

omit [LinearOrder T] in
theorem mem_lockRows {lock : ScopeLock T} (h : lock ∈ lockRows paths owner now ttl) :
    lock.path ∈ paths ∧ lock.owner = owner := by
  obtain ⟨path, hpath, rfl⟩ := List.mem_map.mp h
  exact ⟨List.mem_dedup.mp hpath, rfl⟩

/-- An acquisition that keeps to the condition keeps owners apart. -/
theorem LockState.Inv.acquire (h : s.Inv now) (hflat : s.Flat paths owner now) :
    (s.step (.acquire paths owner now ttl)).Inv now := by
  -- what is held at the time of the call survives the sweep
  have hlive : ∀ lock, s.Holds now lock →
      lock ∈ s.locks.filter fun lock ↦ ¬lock.expiresAt < now := by
    intro lock hlock
    exact List.mem_filter.mpr ⟨h.stored lock hlock, by simpa using hlock.2⟩
  rw [LockState.step, Workers.acquire]
  by_cases hheld : (s.locks.filter fun lock ↦ ¬lock.expiresAt < now).any fun lock ↦ lock.path ∈ paths
  · rw [if_pos hheld]
    exact ⟨hlive, h.exclusive⟩
  · rw [if_neg hheld]
    -- so a path asked for is not the path of anything held
    have hfree : ∀ lock, s.Holds now lock → lock.path ∉ paths := by
      intro lock hlock hmem
      exact hheld (List.any_eq_true.mpr ⟨lock, hlive lock hlock, decide_eq_true hmem⟩)
    have hapart : ∀ lock new, s.Holds now lock → new ∈ lockRows paths owner now ttl →
        lock.owner ≠ new.owner → pathsOverlap new.path lock.path = false := by
      intro lock new hlock hnew howner
      obtain ⟨hpath, hnewOwner⟩ := mem_lockRows hnew
      by_contra hoverlap
      have hsame := hflat new.path hpath lock hlock.1 hlock.2 (hnewOwner ▸ howner)
        ((Bool.not_eq_false _).mp hoverlap)
      exact hfree lock hlock (hsame ▸ hpath)
    refine ⟨?_, ?_⟩
    · rintro lock ⟨hmem, hexpiry⟩
      rcases List.mem_append.mp hmem with hmem | hmem
      · exact List.mem_append_left _ (hlive lock ⟨hmem, hexpiry⟩)
      · exact List.mem_append_right _ hmem
    · rintro lock lock' ⟨hmem, hexpiry⟩ ⟨hmem', hexpiry'⟩ howner
      rcases List.mem_append.mp hmem with hmem | hmem
      · rcases List.mem_append.mp hmem' with hmem' | hmem'
        · exact h.exclusive lock lock' ⟨hmem, hexpiry⟩ ⟨hmem', hexpiry'⟩ howner
        · rw [pathsOverlap_comm]
          exact hapart lock lock' ⟨hmem, hexpiry⟩ hmem' howner
      · rcases List.mem_append.mp hmem' with hmem' | hmem'
        · exact hapart lock' lock ⟨hmem', hexpiry'⟩ hmem howner.symm
        · rw [(mem_lockRows hmem).2, (mem_lockRows hmem').2] at howner
          exact absurd rfl howner

/-- A history from a state in which owners exclude each other. -/
theorem LockState.Inv.run {calls : List (LockCall T)} (h : s.Inv now) (hflat : s.FlatRun calls)
    (htimes : (calls.map (·.time)).Pairwise (· ≤ ·)) (hnow : ∀ call ∈ calls, now ≤ call.time)
    (hle : now ≤ t) (ht : ∀ call ∈ calls, call.time ≤ t) :
    (calls.foldl LockState.step s).Inv t := by
  induction calls generalizing s now with
  | nil => exact h.mono hle
  | cons call calls ih =>
    obtain ⟨hcall, hrest⟩ := hflat
    obtain ⟨hlater, htimes⟩ := List.pairwise_cons.mp htimes
    have hinv := h.mono (hnow call List.mem_cons_self)
    have hstep : (s.step call).Inv call.time := by
      cases call with
      | acquire paths owner now ttl => exact hinv.acquire hcall
      | release owner now => exact hinv.release owner
    exact ih hstep hrest htimes (fun call' hcall' ↦ hlater _ (List.mem_map_of_mem hcall'))
      (ht call List.mem_cons_self) fun call' hcall' ↦ ht call' (List.mem_cons_of_mem _ hcall')

theorem LockState.FlatRun.of_append {before after : List (LockCall T)}
    (h : s.FlatRun (before ++ after)) : s.FlatRun before := by
  induction before generalizing s with
  | nil => trivial
  | cons call before ih => exact ⟨h.1, ih h.2⟩

/-- **Owners exclude each other at every point of a history in which no acquisition asks for a path
that properly contains, or is properly contained in, one that another owner holds.** -/
theorem locks_exclusive_of_flat {calls before after : List (LockCall T)}
    (htimes : (calls.map (·.time)).Pairwise (· ≤ ·)) (hflat : LockState.FlatRun ⟨[], []⟩ calls)
    (hcalls : calls = before ++ after) (ht : ∀ call ∈ before, call.time ≤ t) :
    (LockState.run before).Exclusive t := by
  subst hcalls
  rw [List.map_append] at htimes
  have htimes := (List.pairwise_append.mp htimes).1
  have hempty : ∀ t, LockState.Inv (⟨[], []⟩ : LockState T) t := fun t ↦
    ⟨fun lock hlock ↦ (nomatch hlock.1), fun lock _ hlock ↦ (nomatch hlock.1)⟩
  cases before with
  | nil => exact (hempty t).exclusive
  | cons call before =>
    refine LockState.Inv.exclusive ((hempty call.time).run hflat.of_append htimes ?_ ?_ ht)
    · obtain ⟨hlater, -⟩ := List.pairwise_cons.mp htimes
      refine List.forall_mem_cons.mpr ⟨le_refl _, fun call' hcall' ↦ ?_⟩
      exact hlater _ (List.mem_map_of_mem hcall')
    · exact ht call List.mem_cons_self

/-! ## Two histories -/

/-- Owners lock files beside each other. -/
def flatCalls : List (LockCall ℕ) :=
  [.acquire ["src/app.py"] "one" 0 10, .acquire ["src/lib.py"] "two" 1 10, .release "one" 2,
    .acquire ["src/app.py"] "three" 3 10]

theorem flatCalls_exclusive :
    (LockState.run flatCalls).granted.length = 2 ∧ (LockState.run flatCalls).Exclusive 3 := by
  refine ⟨by decide, locks_exclusive_of_flat (by decide) ?_ (List.append_nil _).symm (by decide)⟩
  simp only [flatCalls, LockState.FlatRun, LockState.Flat, and_true, true_and]
  decide

/-- A directory and a file in it. -/
def nestedCalls : List (LockCall ℕ) :=
  [.acquire ["src"] "one" 0 10, .acquire ["src/app.py"] "two" 1 10]

theorem nested_paths_locked :
    (nestedCalls.map (·.time)).Pairwise (· ≤ ·) ∧ ¬(LockState.run nestedCalls).Exclusive 1 := by
  refine ⟨by decide, fun h ↦ ?_⟩
  have hfirst : (LockState.run nestedCalls).Holds 1 ⟨"src", "one", 10⟩ := ⟨by decide, by decide⟩
  have hsecond : (LockState.run nestedCalls).Holds 1 ⟨"src/app.py", "two", 11⟩ :=
    ⟨by decide, by decide⟩
  exact absurd (h _ _ hfirst hsecond (by decide)) (by decide)

end HiveMind.Workers
