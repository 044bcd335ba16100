import HiveMind.Lib.Dicts
import HiveMind.Lib.Raise

/-!
# The budget of an autonomous run

A budget has limits on episodes, tool calls and compute units. An episode is either consumed at
once, or it is reserved first: a reservation claims resources piece by piece, and is settled in the
end. What active reservations have claimed is kept in two running totals.

A reservation is named by an id that was drawn for it, and the caller hands it back together with the
allowance that it was issued. `settle_reservation` takes the reservation of that id out before it
looks at the allowance. With another allowance it raises, and the reservation is gone all the same,
while the totals still have what it had claimed.

* **`safe_iff`**: a run keeps the totals, the limits and the budgets of calls that raise, if and only
  if no reservation that is settled is active under another allowance.
-/

open Raise

namespace HiveMind.Autonomy

inductive BudgetError where
  | budgetExceeded (message : String)
  | valueError (message : String)
  deriving DecidableEq

structure EpisodeAllowance where
  toolCalls : ℤ
  computeUnits : ℚ
  deriving DecidableEq

/-- A reservation, as a caller holds it. Nothing keeps a caller from making one up. -/
structure BudgetReservation where
  id : String
  allowance : EpisodeAllowance
  deriving DecidableEq

structure ReservationState where
  allowance : EpisodeAllowance
  toolCalls : ℤ
  computeUnits : ℚ
  deriving DecidableEq

/-- No more is claimed than the allowance has. -/
structure ReservationState.Within (state : ReservationState) : Prop where
  toolCalls_nonneg : 0 ≤ state.toolCalls
  toolCalls_le : state.toolCalls ≤ state.allowance.toolCalls
  computeUnits_nonneg : 0 ≤ state.computeUnits
  computeUnits_le : state.computeUnits ≤ state.allowance.computeUnits

structure AutonomyBudget where
  maxEpisodes : ℤ
  maxToolCalls : ℤ
  maxComputeUnits : ℚ
  maxToolCallsPerEpisode : ℤ
  maxComputeUnitsPerEpisode : ℚ
  episodesUsed : ℤ
  toolCallsUsed : ℤ
  computeUnitsUsed : ℚ
  reservations : List (String × ReservationState)
  reservedToolCalls : ℤ
  reservedComputeUnits : ℚ
  deriving DecidableEq

abbrev BudgetM := EStateM BudgetError AutonomyBudget

namespace AutonomyBudget

/-! ## The operations -/

/-- `_resource_exhausted`, with the reservations. -/
def ResourceExhausted (b : AutonomyBudget) : Prop :=
  b.maxEpisodes ≤ b.episodesUsed + b.reservations.length ∨
    b.maxToolCalls ≤ b.toolCallsUsed + b.reservedToolCalls ∨
    b.maxComputeUnits ≤ b.computeUnitsUsed + b.reservedComputeUnits

instance (b : AutonomyBudget) : Decidable b.ResourceExhausted :=
  inferInstanceAs (Decidable (_ ∨ _ ∨ _))

/-- `_available_allowance`. -/
def availableAllowance (b : AutonomyBudget) : EpisodeAllowance where
  toolCalls := min b.maxToolCallsPerEpisode (b.maxToolCalls - b.toolCallsUsed - b.reservedToolCalls)
  computeUnits := min b.maxComputeUnitsPerEpisode
    (b.maxComputeUnits - b.computeUnitsUsed - b.reservedComputeUnits)

def issueAllowance : BudgetM EpisodeAllowance := do
  let b ← get
  if b.ResourceExhausted then
    throw (.budgetExceeded "resource budget exhausted")
  return b.availableAllowance

/-- The amounts do not fit what is left of the budget. -/
def Exceeds (b : AutonomyBudget) (toolCalls : ℤ) (computeUnits : ℚ) : Prop :=
  b.maxToolCalls < b.toolCallsUsed + b.reservedToolCalls + toolCalls ∨
    b.maxComputeUnits < b.computeUnitsUsed + b.reservedComputeUnits + computeUnits

instance (b : AutonomyBudget) (toolCalls : ℤ) (computeUnits : ℚ) :
    Decidable (b.Exceeds toolCalls computeUnits) := inferInstanceAs (Decidable (_ ∨ _))

def consume (allowance : EpisodeAllowance) (toolCalls : ℤ) (computeUnits : ℚ) : BudgetM Unit := do
  if toolCalls < 0 ∨ computeUnits < 0 then
    throw (.valueError "resource consumption cannot be negative")
  if allowance.toolCalls < toolCalls ∨ allowance.computeUnits < computeUnits then
    throw (.budgetExceeded "episode exceeded its issued allowance")
  let b ← get
  if b.maxEpisodes < b.episodesUsed + b.reservations.length + 1 then
    throw (.budgetExceeded "episode budget exhausted")
  if b.Exceeds toolCalls computeUnits then
    throw (.budgetExceeded "resource budget exhausted")
  set { b with
    episodesUsed := b.episodesUsed + 1
    toolCallsUsed := b.toolCallsUsed + toolCalls
    computeUnitsUsed := b.computeUnitsUsed + computeUnits }

/-- `reserve_episode`, with the id that `uuid4` draws. -/
def reserveEpisode (reservationId : String) : BudgetM BudgetReservation := do
  let b ← get
  if b.ResourceExhausted then
    throw (.budgetExceeded "resource budget exhausted")
  let allowance := b.availableAllowance
  set { b with reservations := Dicts.setItem reservationId ⟨allowance, 0, 0⟩ b.reservations }
  return ⟨reservationId, allowance⟩

def reserveConsumption (reservation : BudgetReservation) (toolCalls : ℤ) (computeUnits : ℚ) :
    BudgetM Unit := do
  if toolCalls < 0 ∨ computeUnits < 0 then
    throw (.valueError "resource reservation cannot be negative")
  let b ← get
  match b.reservations.lookup reservation.id with
  | none => throw (.valueError "budget reservation is not active")
  | some state =>
    if state.allowance ≠ reservation.allowance then
      throw (.valueError "budget reservation is not active")
    if state.allowance.toolCalls < state.toolCalls + toolCalls ∨
        state.allowance.computeUnits < state.computeUnits + computeUnits then
      throw (.budgetExceeded "episode exceeded its issued allowance")
    if b.Exceeds toolCalls computeUnits then
      throw (.budgetExceeded "resource budget exhausted")
    let claimed := ReservationState.mk state.allowance (state.toolCalls + toolCalls)
      (state.computeUnits + computeUnits)
    set { b with
      reservations := Dicts.setItem reservation.id claimed b.reservations
      reservedToolCalls := b.reservedToolCalls + toolCalls
      reservedComputeUnits := b.reservedComputeUnits + computeUnits }

def settleReservation (reservation : BudgetReservation) : BudgetM Unit := do
  let b ← get
  let popped := { b with reservations := Dicts.popItem reservation.id b.reservations }
  set popped
  match b.reservations.lookup reservation.id with
  | none => throw (.valueError "budget reservation is not active")
  | some state =>
    -- the reservation is out already
    if state.allowance ≠ reservation.allowance then
      throw (.valueError "budget reservation is not active")
    let released := { popped with
      reservedToolCalls := b.reservedToolCalls - state.toolCalls
      reservedComputeUnits := b.reservedComputeUnits - state.computeUnits }
    set (if state.toolCalls ≠ 0 ∨ state.computeUnits ≠ 0 then
      { released with
        episodesUsed := b.episodesUsed + 1
        toolCallsUsed := b.toolCallsUsed + state.toolCalls
        computeUnitsUsed := b.computeUnitsUsed + state.computeUnits }
    else released)

/-! ## What keeps a budget coupled -/

/-- Totals and limits agree with the reservations. -/
structure Coupled (b : AutonomyBudget) : Prop where
  perEpisode : 0 ≤ b.maxToolCallsPerEpisode ∧ 0 ≤ b.maxComputeUnitsPerEpisode
  nodup : (b.reservations.map Prod.fst).Nodup
  toolCalls : b.reservedToolCalls = Dicts.total ReservationState.toolCalls b.reservations
  computeUnits : b.reservedComputeUnits = Dicts.total ReservationState.computeUnits b.reservations
  maxToolCalls : b.toolCallsUsed + b.reservedToolCalls ≤ b.maxToolCalls
  maxComputeUnits : b.computeUnitsUsed + b.reservedComputeUnits ≤ b.maxComputeUnits
  maxEpisodes : b.episodesUsed + b.reservations.length ≤ b.maxEpisodes
  claims : ∀ r ∈ b.reservations, r.2.Within

/-- No used amount is smaller. -/
structure UsedLe (b b' : AutonomyBudget) : Prop where
  episodes : b.episodesUsed ≤ b'.episodesUsed
  toolCalls : b.toolCallsUsed ≤ b'.toolCallsUsed
  computeUnits : b.computeUnitsUsed ≤ b'.computeUnitsUsed

theorem UsedLe.of_eq {b b' : AutonomyBudget} (hepisodes : b.episodesUsed = b'.episodesUsed)
    (htoolCalls : b.toolCallsUsed = b'.toolCallsUsed)
    (hcomputeUnits : b.computeUnitsUsed = b'.computeUnitsUsed) : UsedLe b b' :=
  ⟨hepisodes.le, htoolCalls.le, hcomputeUnits.le⟩

/-- What a call that draws an id may make of a coupled budget. -/
structure Advances (drawn : Option String) (b b' : AutonomyBudget) : Prop where
  coupled : Coupled b'
  usedLe : UsedLe b b'
  keys : ∀ id ∈ b'.reservations.map Prod.fst, id ∈ b.reservations.map Prod.fst ∨ id ∈ drawn

theorem Coupled.advances_self {b : AutonomyBudget} (h : Coupled b) (drawn : Option String) :
    Advances drawn b b :=
  ⟨h, .of_eq rfl rfl rfl, fun _ ↦ .inl⟩

variable {b b' : AutonomyBudget} {reservation : BudgetReservation} {allowance : EpisodeAllowance}
  {toolCalls : ℤ} {computeUnits : ℚ} {reservationId : String} {u : Unit}

theorem not_exceeds : ¬b.Exceeds toolCalls computeUnits ↔
    b.toolCallsUsed + b.reservedToolCalls + toolCalls ≤ b.maxToolCalls ∧
      b.computeUnitsUsed + b.reservedComputeUnits + computeUnits ≤ b.maxComputeUnits := by
  rw [Exceeds, not_or, not_lt, not_lt]

theorem not_resourceExhausted : ¬b.ResourceExhausted ↔
    b.episodesUsed + b.reservations.length < b.maxEpisodes ∧
      b.toolCallsUsed + b.reservedToolCalls < b.maxToolCalls ∧
      b.computeUnitsUsed + b.reservedComputeUnits < b.maxComputeUnits := by
  rw [ResourceExhausted, not_or, not_or, not_le, not_le, not_le]

theorem Coupled.of_consume (h : Coupled b)
    (hrun : consume allowance toolCalls computeUnits b = .ok u b') : Advances none b b' := by
  simp only [consume, run_guard_eq_ok, run_bind_eq_ok, run_get_eq_ok, run_set_eq_ok,
    not_exceeds, not_or, not_lt] at hrun
  obtain ⟨⟨htools, hunits⟩, -, _, _, ⟨rfl, rfl⟩, hepisodes, ⟨hmaxTools, hmaxUnits⟩, rfl⟩ := hrun
  refine ⟨⟨h.perEpisode, h.nodup, h.toolCalls, h.computeUnits, ?_, ?_, ?_, h.claims⟩, ⟨?_, ?_, ?_⟩,
    fun _ ↦ .inl⟩
  · dsimp only
    omega
  · dsimp only
    linarith
  · dsimp only
    omega
  · dsimp only
    omega
  · exact le_add_of_nonneg_right htools
  · exact le_add_of_nonneg_right hunits

theorem Coupled.of_reserveEpisode {r : BudgetReservation} (h : Coupled b)
    (hfresh : reservationId ∉ b.reservations.map Prod.fst)
    (hrun : reserveEpisode reservationId b = .ok r b') : Advances (some reservationId) b b' := by
  simp only [reserveEpisode, run_guard_eq_ok, run_bind_eq_ok, run_get_eq_ok, run_set_eq_ok,
    run_pure_eq_ok, not_resourceExhausted] at hrun
  obtain ⟨_, _, ⟨rfl, rfl⟩, ⟨hepisodes, htools, hunits⟩, _, _, rfl, -, rfl⟩ := hrun
  refine ⟨⟨h.perEpisode, Dicts.nodup_setItem h.nodup, ?_, ?_, h.maxToolCalls, h.maxComputeUnits, ?_,
    ?_⟩, .of_eq rfl rfl rfl, fun id hid ↦ (Dicts.mem_map_fst_setItem.mp hid).symm.imp_right ?_⟩
  · dsimp only
    rw [Dicts.setItem_of_notMem hfresh, Dicts.total_concat, add_zero]
    exact h.toolCalls
  · dsimp only
    rw [Dicts.setItem_of_notMem hfresh, Dicts.total_concat, add_zero]
    exact h.computeUnits
  · dsimp only
    rw [Dicts.setItem_of_notMem hfresh, List.length_append, List.length_singleton]
    push_cast
    omega
  · dsimp only
    rw [Dicts.setItem_of_notMem hfresh]
    intro r hr
    rcases List.mem_append.mp hr with hr | hr
    · exact h.claims r hr
    · -- nothing is left of the budget only when it is exhausted
      obtain rfl := List.mem_singleton.mp hr
      have htoolsLeft : 0 ≤ b.maxToolCalls - b.toolCallsUsed - b.reservedToolCalls := by omega
      have hunitsLeft : 0 ≤ b.maxComputeUnits - b.computeUnitsUsed - b.reservedComputeUnits := by
        linarith
      exact ⟨le_rfl, le_min h.perEpisode.1 htoolsLeft, le_rfl, le_min h.perEpisode.2 hunitsLeft⟩
  · rintro rfl
    rfl

theorem Coupled.of_reserveConsumption (h : Coupled b)
    (hrun : reserveConsumption reservation toolCalls computeUnits b = .ok u b') :
    Advances none b b' := by
  simp only [reserveConsumption, run_guard_eq_ok, run_bind_eq_ok, run_get_eq_ok, not_or,
    not_lt] at hrun
  obtain ⟨⟨htools, hunits⟩, _, _, ⟨rfl, rfl⟩, hrun⟩ := hrun
  cases hlookup : b.reservations.lookup reservation.id with
  | none =>
    rw [hlookup] at hrun
    exact nomatch hrun
  | some state =>
    rw [hlookup] at hrun
    simp only [run_guard_eq_ok, run_set_eq_ok, not_exceeds, not_or, not_lt, not_not] at hrun
    obtain ⟨hallowance, ⟨hclaimTools, hclaimUnits⟩, ⟨hmaxTools, hmaxUnits⟩, rfl⟩ := hrun
    have hmem : (reservation.id, state) ∈ b.reservations := Dicts.mem_of_lookup hlookup
    have hstate : state.Within := h.claims _ hmem
    have hkeys : reservation.id ∈ b.reservations.map Prod.fst := List.mem_map_of_mem hmem
    refine ⟨⟨h.perEpisode, Dicts.nodup_setItem h.nodup, ?_, ?_, ?_, ?_, ?_, ?_⟩, .of_eq rfl rfl rfl,
      fun id hid ↦ .inl ?_⟩
    · dsimp only
      rw [Dicts.sum_setItem _ hlookup, h.toolCalls]
      dsimp only
      omega
    · dsimp only
      rw [Dicts.sum_setItem _ hlookup, h.computeUnits]
      dsimp only
      linarith
    · dsimp only
      omega
    · dsimp only
      linarith
    · have hlength := congrArg List.length
        (Dicts.map_fst_setItem_of_mem (ReservationState.mk state.allowance
          (state.toolCalls + toolCalls) (state.computeUnits + computeUnits)) hkeys)
      rw [List.length_map, List.length_map] at hlength
      dsimp only
      rw [hlength]
      exact h.maxEpisodes
    · intro r hr
      obtain ⟨k, v⟩ := r
      rw [Dicts.mem_setItem h.nodup] at hr
      split at hr
      · subst hr
        exact ⟨add_nonneg hstate.toolCalls_nonneg htools, hclaimTools,
          add_nonneg hstate.computeUnits_nonneg hunits, hclaimUnits⟩
      · exact h.claims _ hr
    · rw [Dicts.map_fst_setItem_of_mem _ hkeys] at hid
      exact hid

theorem Coupled.of_settleReservation (h : Coupled b)
    (hrun : settleReservation reservation b = .ok u b') : Advances none b b' := by
  simp only [settleReservation, run_bind_eq_ok, run_get_eq_ok, run_set_eq_ok] at hrun
  obtain ⟨_, _, ⟨rfl, rfl⟩, _, _, rfl, hrun⟩ := hrun
  cases hlookup : b.reservations.lookup reservation.id with
  | none =>
    rw [hlookup] at hrun
    exact nomatch hrun
  | some state =>
    rw [hlookup] at hrun
    simp only [run_guard_eq_ok, run_set_eq_ok, not_not] at hrun
    obtain ⟨-, rfl⟩ := hrun
    have hmem : (reservation.id, state) ∈ b.reservations := Dicts.mem_of_lookup hlookup
    have hstate : state.Within := h.claims _ hmem
    have hkeys : reservation.id ∈ b.reservations.map Prod.fst := List.mem_map_of_mem hmem
    have hlength := Dicts.length_popItem hkeys
    have hsub := Dicts.popItem_sublist reservation.id b.reservations
    have htools := h.toolCalls
    have hunits := h.computeUnits
    have hnodup := (hsub.map Prod.fst).nodup h.nodup
    have hmaxTools := h.maxToolCalls
    have hmaxUnits := h.maxComputeUnits
    have hmaxEpisodes := h.maxEpisodes
    split
    · refine ⟨⟨h.perEpisode, hnodup, ?_, ?_, ?_, ?_, ?_, fun r hr ↦ h.claims r (hsub.subset hr)⟩,
        ⟨?_, ?_, ?_⟩, fun id hid ↦ .inl ((hsub.map Prod.fst).subset hid)⟩
      · dsimp only
        rw [Dicts.sum_popItem _ hlookup, htools]
      · dsimp only
        rw [Dicts.sum_popItem _ hlookup, hunits]
      · dsimp only
        omega
      · dsimp only
        linarith
      · dsimp only
        omega
      · dsimp only
        omega
      · exact le_add_of_nonneg_right hstate.toolCalls_nonneg
      · exact le_add_of_nonneg_right hstate.computeUnits_nonneg
    · next hunused =>
      rw [not_or, not_not, not_not] at hunused
      refine ⟨⟨h.perEpisode, hnodup, ?_, ?_, ?_, ?_, ?_, fun r hr ↦ h.claims r (hsub.subset hr)⟩,
        .of_eq rfl rfl rfl, fun id hid ↦ .inl ((hsub.map Prod.fst).subset hid)⟩
      · dsimp only
        rw [Dicts.sum_popItem _ hlookup, htools]
      · dsimp only
        rw [Dicts.sum_popItem _ hlookup, hunits]
      · dsimp only
        omega
      · dsimp only
        linarith [hunused.2]
      · dsimp only
        omega

/-! ## Calls that raise -/

theorem atomic_issueAllowance : Atomic issueAllowance :=
  atomic_bind atomic_get reads_get fun _ ↦ atomic_guard (atomic_pure _)

theorem atomic_consume : Atomic (consume allowance toolCalls computeUnits) :=
  atomic_guard (atomic_guard (atomic_bind atomic_get reads_get fun _ ↦
    atomic_guard (atomic_guard (atomic_set _))))

theorem atomic_reserveEpisode : Atomic (reserveEpisode reservationId) :=
  atomic_bind atomic_get reads_get fun _ ↦ atomic_guard (atomic_bind_pure (atomic_set _))

theorem atomic_reserveConsumption :
    Atomic (reserveConsumption reservation toolCalls computeUnits) := by
  refine atomic_guard (atomic_bind atomic_get reads_get fun b ↦ ?_)
  split
  · exact atomic_throw _
  · exact atomic_guard (atomic_guard (atomic_guard (atomic_set _)))

/-- A settlement that raises has taken the reservation out. -/
theorem settleReservation_eq_error {e : BudgetError}
    (hrun : settleReservation reservation b = .error e b') :
    b' = { b with reservations := Dicts.popItem reservation.id b.reservations } ∧
      ∀ state, b.reservations.lookup reservation.id = some state →
        state.allowance ≠ reservation.allowance := by
  rcases run_bind_eq_error hrun with hrun | ⟨_, _, hget, hrun⟩
  · exact nomatch hrun
  obtain ⟨rfl, rfl⟩ := run_get_eq_ok.mp hget
  rcases run_bind_eq_error hrun with hrun | ⟨_, _, hset, hrun⟩
  · exact nomatch hrun
  obtain rfl := run_set_eq_ok.mp hset
  cases hlookup : b.reservations.lookup reservation.id with
  | none =>
    rw [hlookup] at hrun
    exact ⟨(EStateM.Result.error.inj hrun).2.symm, nofun⟩
  | some state =>
    rw [hlookup] at hrun
    by_cases hallowance : state.allowance = reservation.allowance
    · dsimp only at hrun
      rw [if_neg (not_not.mpr hallowance)] at hrun
      exact nomatch hrun
    · refine ⟨?_, ?_⟩
      · dsimp only at hrun
        rw [if_pos hallowance] at hrun
        exact (EStateM.Result.error.inj hrun).2.symm
      · rintro _ ⟨⟩
        exact hallowance

end AutonomyBudget

/-! ## Runs -/

open AutonomyBudget

/-- A call of the public operations. -/
inductive BudgetCall where
  | issueAllowance
  | consume (allowance : EpisodeAllowance) (toolCalls : ℤ) (computeUnits : ℚ)
  | reserveEpisode (reservationId : String)
  | reserveConsumption (reservation : BudgetReservation) (toolCalls : ℤ) (computeUnits : ℚ)
  | settleReservation (reservation : BudgetReservation)

namespace BudgetCall

/-- The call, without what it returns. -/
def run : BudgetCall → BudgetM Unit
  | issueAllowance => AutonomyBudget.issueAllowance >>= fun _ ↦ pure ()
  | consume allowance toolCalls computeUnits =>
    AutonomyBudget.consume allowance toolCalls computeUnits
  | reserveEpisode reservationId => AutonomyBudget.reserveEpisode reservationId >>= fun _ ↦ pure ()
  | reserveConsumption reservation toolCalls computeUnits =>
    AutonomyBudget.reserveConsumption reservation toolCalls computeUnits
  | settleReservation reservation => AutonomyBudget.settleReservation reservation

/-- The budget after the call, whether it returns or raises. -/
def after (call : BudgetCall) (b : AutonomyBudget) : AutonomyBudget :=
  match call.run b with
  | .ok _ b' => b'
  | .error _ b' => b'

/-- The id that the call draws. -/
def drawn? : BudgetCall → Option String
  | reserveEpisode reservationId => some reservationId
  | _ => none

/-- A reservation that is settled is not active under another allowance. -/
def Matched (b : AutonomyBudget) : BudgetCall → Prop
  | settleReservation reservation =>
    ∀ state, b.reservations.lookup reservation.id = some state →
      state.allowance = reservation.allowance
  | _ => True

/-- The call leaves a coupled budget, used amounts are not smaller, and if it raises nothing is
changed. -/
structure Keeps (call : BudgetCall) (b : AutonomyBudget) : Prop where
  coupled : Coupled (call.after b)
  usedLe : UsedLe b (call.after b)
  unchanged : isOk (call.run b) = false → call.after b = b

end BudgetCall

/-- The budget after some calls. -/
def afterAll (calls : List BudgetCall) (b : AutonomyBudget) : AutonomyBudget :=
  calls.foldl (fun b call ↦ call.after b) b

/-- Every call of the run has the property, of the budget that it finds. -/
def Throughout (P : BudgetCall → AutonomyBudget → Prop) (b : AutonomyBudget)
    (calls : List BudgetCall) : Prop :=
  ∀ before call rest, calls = before ++ call :: rest → P call (afterAll before b)

theorem throughout_cons {P : BudgetCall → AutonomyBudget → Prop} {b : AutonomyBudget}
    {call : BudgetCall} {calls : List BudgetCall} :
    Throughout P b (call :: calls) ↔ P call b ∧ Throughout P (call.after b) calls := by
  constructor
  · intro h
    exact ⟨h [] call calls rfl, fun before call' rest heq ↦ h (call :: before) call' rest (heq ▸ rfl)⟩
  · rintro ⟨hcall, hcalls⟩ before call' rest heq
    rcases List.cons_eq_append_iff.mp heq with ⟨rfl, heq⟩ | ⟨before', rfl, heq⟩
    · obtain ⟨rfl, rfl⟩ := List.cons.inj heq
      exact hcall
    · exact hcalls before' call' rest (List.cons.inj heq).2

/-- A budget that was opened with some amounts used. -/
structure Opened (b : AutonomyBudget) : Prop where
  limits : 0 ≤ b.maxEpisodes ∧ 0 ≤ b.maxToolCalls ∧ 0 ≤ b.maxComputeUnits ∧
    0 ≤ b.maxToolCallsPerEpisode ∧ 0 ≤ b.maxComputeUnitsPerEpisode
  used : b.episodesUsed ≤ b.maxEpisodes ∧ b.toolCallsUsed ≤ b.maxToolCalls ∧
    b.computeUnitsUsed ≤ b.maxComputeUnits
  empty : b.reservations = [] ∧ b.reservedToolCalls = 0 ∧ b.reservedComputeUnits = 0

variable {b b' : AutonomyBudget} {call : BudgetCall} {calls : List BudgetCall}

theorem Opened.coupled (h : Opened b) : Coupled b := by
  obtain ⟨hreservations, htools, hunits⟩ := h.empty
  obtain ⟨hepisodes, hmaxTools, hmaxUnits⟩ := h.used
  refine ⟨⟨h.limits.2.2.2.1, h.limits.2.2.2.2⟩, ?_, ?_, ?_, ?_, ?_, ?_, ?_⟩
  · rw [hreservations]
    exact List.nodup_nil
  · rw [hreservations, htools]
    rfl
  · rw [hreservations, hunits]
    rfl
  · rw [htools, add_zero]
    exact hmaxTools
  · rw [hunits, add_zero]
    exact hmaxUnits
  · rw [hreservations, List.length_nil, Nat.cast_zero, add_zero]
    exact hepisodes
  · rw [hreservations]
    exact nofun

namespace BudgetCall

theorem after_of_ok {u : Unit} (h : call.run b = .ok u b') : call.after b = b' := by
  rw [after, h]

theorem after_of_error {e : BudgetError} (h : call.run b = .error e b') : call.after b = b' := by
  rw [after, h]

/-- A call of which the code is all or nothing, and that advances where it returns. -/
theorem advances_of_atomic (hb : Coupled b) (hatomic : Atomic call.run)
    (hok : ∀ u b', call.run b = .ok u b' → Advances call.drawn? b b') :
    Advances call.drawn? b (call.after b) ∧ (isOk (call.run b) = false → call.after b = b) := by
  cases hrun : call.run b with
  | ok u b' =>
    rw [after_of_ok hrun]
    exact ⟨hok u b' hrun, nofun⟩
  | error e b' =>
    rw [after_of_error hrun, hatomic b e b' hrun]
    exact ⟨hb.advances_self _, fun _ ↦ rfl⟩

/-- A settlement of a reservation that is not active under another allowance. -/
theorem advances_settleReservation {reservation : BudgetReservation} (hb : Coupled b)
    (h : (settleReservation reservation).Matched b) :
    Advances none b ((settleReservation reservation).after b) ∧
      (isOk ((settleReservation reservation).run b) = false →
        (settleReservation reservation).after b = b) := by
  cases hrun : (settleReservation reservation).run b with
  | ok u b' =>
    rw [after_of_ok hrun]
    exact ⟨hb.of_settleReservation hrun, nofun⟩
  | error e b' =>
    obtain ⟨hafter, hmismatch⟩ := settleReservation_eq_error hrun
    have hnot : reservation.id ∉ b.reservations.map Prod.fst := by
      intro hmem
      obtain ⟨⟨k, state⟩, hitem, rfl⟩ := List.mem_map.mp hmem
      cases hlookup : b.reservations.lookup reservation.id with
      | none =>
        have hne := List.lookup_eq_none_iff.mp hlookup _ hitem
        simp at hne
      | some state => exact hmismatch state hlookup (h state hlookup)
    rw [after_of_error hrun, hafter, Dicts.popItem_of_notMem hnot]
    exact ⟨hb.advances_self _, fun _ ↦ rfl⟩

theorem advances (hb : Coupled b)
    (hfresh : ∀ id ∈ call.drawn?, id ∉ b.reservations.map Prod.fst) (h : call.Matched b) :
    Advances call.drawn? b (call.after b) ∧ (isOk (call.run b) = false → call.after b = b) := by
  cases call with
  | settleReservation reservation => exact advances_settleReservation hb h
  | issueAllowance =>
    refine advances_of_atomic hb (atomic_bind_pure atomic_issueAllowance) fun u b' hrun ↦ ?_
    simp only [run, AutonomyBudget.issueAllowance, run_bind_eq_ok, run_guard_eq_ok, run_get_eq_ok,
      run_pure_eq_ok] at hrun
    obtain ⟨_, _, ⟨_, _, ⟨rfl, rfl⟩, -, -, rfl⟩, -, rfl⟩ := hrun
    exact hb.advances_self _
  | consume allowance toolCalls computeUnits =>
    exact advances_of_atomic hb atomic_consume fun _ _ ↦ hb.of_consume
  | reserveEpisode reservationId =>
    refine advances_of_atomic hb (atomic_bind_pure atomic_reserveEpisode) fun u b' hrun ↦ ?_
    obtain ⟨r, _, hreserve, hpure⟩ := run_bind_eq_ok.mp hrun
    obtain ⟨-, rfl⟩ := run_pure_eq_ok.mp hpure
    exact hb.of_reserveEpisode (hfresh reservationId rfl) hreserve
  | reserveConsumption reservation toolCalls computeUnits =>
    exact advances_of_atomic hb atomic_reserveConsumption fun _ _ ↦ hb.of_reserveConsumption

/-- A settlement that keeps the budget is of no reservation that is active under another
allowance. -/
theorem Keeps.matched (h : call.Keeps b) : call.Matched b := by
  cases call with
  | settleReservation reservation =>
    -- a mismatch raises, and the budget has one reservation less
    intro state hlookup
    by_contra hallowance
    have hkeys : reservation.id ∈ b.reservations.map Prod.fst :=
      List.mem_map_of_mem (Dicts.mem_of_lookup hlookup)
    have hlength := Dicts.length_popItem hkeys
    cases hrun : (settleReservation reservation).run b with
    | ok u b' =>
      simp only [run, AutonomyBudget.settleReservation, run_bind_eq_ok, run_get_eq_ok,
        run_set_eq_ok] at hrun
      obtain ⟨_, _, ⟨rfl, rfl⟩, _, _, rfl, hrun⟩ := hrun
      rw [hlookup] at hrun
      exact hallowance (not_not.mp (run_guard_eq_ok.mp hrun).1)
    | error e b' =>
      have hsame := h.unchanged (by rw [hrun]; rfl)
      rw [after_of_error hrun, (settleReservation_eq_error hrun).1] at hsame
      have hlength' := congrArg (fun b ↦ b.reservations.length) hsame
      dsimp only at hlength'
      omega
  | _ => trivial

end BudgetCall

/-- The budget is coupled, and every call keeps it so. -/
def Safe (b : AutonomyBudget) (calls : List BudgetCall) : Prop :=
  Coupled b ∧ Throughout BudgetCall.Keeps b calls

theorem safe_iff_of_coupled (hb : Coupled b)
    (hfresh : ∀ id ∈ calls.filterMap BudgetCall.drawn?, id ∉ b.reservations.map Prod.fst)
    (hdrawn : (calls.filterMap BudgetCall.drawn?).Nodup) :
    Throughout BudgetCall.Keeps b calls ↔ Throughout (fun call b ↦ call.Matched b) b calls := by
  induction calls generalizing b with
  | nil => exact iff_of_true (fun _ _ _ h ↦ absurd h (by simp)) fun _ _ _ h ↦ absurd h (by simp)
  | cons call calls ih =>
    have hcall : ∀ id ∈ call.drawn?, id ∉ b.reservations.map Prod.fst := fun id hid ↦
      hfresh id (List.mem_filterMap.mpr ⟨call, List.mem_cons_self, hid⟩)
    have hrest : ∀ id ∈ calls.filterMap BudgetCall.drawn?, id ∉ call.drawn? := by
      intro id hid hmem
      rw [List.filterMap_cons, Option.mem_def.mp hmem, List.nodup_cons] at hdrawn
      exact hdrawn.1 hid
    have hdrawn' : (calls.filterMap BudgetCall.drawn?).Nodup := by
      rw [List.filterMap_cons] at hdrawn
      split at hdrawn
      · exact hdrawn
      · exact (List.nodup_cons.mp hdrawn).2
    -- the ids of later reservations stay fresh
    have hnext (hmatched : call.Matched b) := ih (BudgetCall.advances hb hcall hmatched).1.coupled
      (fun id hid hmem ↦ ((BudgetCall.advances hb hcall hmatched).1.keys id hmem).elim
        (hfresh id (List.mem_filterMap.mpr
          ((List.mem_filterMap.mp hid).imp fun c hc ↦ ⟨List.mem_cons_of_mem call hc.1, hc.2⟩)))
        (hrest id hid)) hdrawn'
    rw [throughout_cons, throughout_cons]
    constructor
    · rintro ⟨hkeeps, hall⟩
      exact ⟨hkeeps.matched, (hnext (hkeeps.matched)).mp hall⟩
    · rintro ⟨hmatched, hall⟩
      obtain ⟨hadvances, hunchanged⟩ := BudgetCall.advances hb hcall hmatched
      exact ⟨⟨hadvances.coupled, hadvances.usedLe, hunchanged⟩, (hnext hmatched).mpr hall⟩

/-- **A run keeps totals, limits and used amounts, and leaves the budget alone where a call raises,
if and only if no reservation that is settled is active under another allowance.** -/
theorem safe_iff (hb : Opened b) (hdrawn : (calls.filterMap BudgetCall.drawn?).Nodup) :
    Safe b calls ↔ Throughout (fun call b ↦ call.Matched b) b calls := by
  have hfresh : ∀ id ∈ calls.filterMap BudgetCall.drawn?, id ∉ b.reservations.map Prod.fst := by
    rw [hb.empty.1]
    exact fun _ _ ↦ List.not_mem_nil
  rw [Safe, safe_iff_of_coupled hb.coupled hfresh hdrawn]
  exact and_iff_right hb.coupled

/-- A budget of three episodes, with nothing used. -/
def sampleBudget : AutonomyBudget where
  maxEpisodes := 3
  maxToolCalls := 10
  maxComputeUnits := 10
  maxToolCallsPerEpisode := 4
  maxComputeUnitsPerEpisode := 4
  episodesUsed := 0
  toolCallsUsed := 0
  computeUnitsUsed := 0
  reservations := []
  reservedToolCalls := 0
  reservedComputeUnits := 0

/-- A reservation is claimed, settled with an allowance that was made up, and is gone. -/
def mismatchedCalls : List BudgetCall :=
  [.reserveEpisode "a", .reserveConsumption ⟨"a", 4, 4⟩ 2 1, .settleReservation ⟨"a", 9, 9⟩]

/-- A reservation is claimed and settled, and another episode is consumed at once. -/
def matchedCalls : List BudgetCall :=
  [.reserveEpisode "a", .reserveConsumption ⟨"a", 4, 4⟩ 2 1, .consume ⟨4, 4⟩ 1 1,
    .settleReservation ⟨"a", 4, 4⟩]

theorem sampleBudget_opened : Opened sampleBudget :=
  ⟨by decide, by decide, rfl, rfl, rfl⟩

theorem mismatched_not_safe :
    Opened sampleBudget ∧ (mismatchedCalls.filterMap BudgetCall.drawn?).Nodup ∧
      ¬Safe sampleBudget mismatchedCalls := by
  refine ⟨sampleBudget_opened, by decide, fun h ↦ ?_⟩
  have htotal := (h.2 _ _ [] (show mismatchedCalls = [_, _] ++ [_] from rfl)).coupled.toolCalls
  revert htotal
  decide +kernel

theorem matched_safe : Safe sampleBudget matchedCalls := by
  refine (safe_iff sampleBudget_opened (by decide)).mpr ?_
  simp only [matchedCalls, throughout_cons]
  refine ⟨trivial, trivial, trivial, fun state hlookup ↦ ?_, fun _ _ _ h ↦ absurd h (by simp)⟩
  have hclaimed : (BudgetCall.after (.consume ⟨4, 4⟩ 1 1) (BudgetCall.after
      (.reserveConsumption ⟨"a", 4, 4⟩ 2 1) (BudgetCall.after (.reserveEpisode "a")
        sampleBudget))).reservations.lookup "a" = some ⟨⟨4, 4⟩, 2, 1⟩ := by decide +kernel
  obtain rfl := Option.some.inj (hlookup.symm.trans hclaimed)
  rfl

end HiveMind.Autonomy
