import HiveMind.Lib.JsonText
import HiveMind.Lib.TwoPhase

/-!
# Roles and workspaces of a mission

The statuses of all roles of a mission are one JSON object in one column, and so are the snapshots
of its workspaces. To change one entry a call reads the object, changes its copy and writes all of it
back. Only the writing takes the lock, so what others have written between the two is overwritten
with what the call had read.

A history keeps the updates that were committed, in order. The columns are up to date if every key
has the value of its last update.

* **`updates_kept_of_timely`**: where no call commits after an update of another key of its column
  that it has not read, the columns are up to date throughout.
-/

namespace HiveMind.Missions

/-! ## Mission rows -/

inductive Role where
  | orchestrator
  | explorer
  | architect
  | builder
  | curator
  | optimizer
  | steward
  | integrator
  deriving DecidableEq, Repr

def Role.value : Role → String
  | orchestrator => "orchestrator"
  | explorer => "explorer"
  | architect => "architect"
  | builder => "builder"
  | curator => "curator"
  | optimizer => "optimizer"
  | steward => "steward"
  | integrator => "integrator"

def Role.all : List Role :=
  [orchestrator, explorer, architect, builder, curator, optimizer, steward, integrator]

/-- The columns of `missions` that are rewritten as a whole. -/
inductive Column where
  | roles
  | workspaces
  deriving DecidableEq, Repr

/-- A row of `missions`, as far as these columns go. -/
structure MissionRow where
  rolesJson : String
  workspacesJson : String
  deriving DecidableEq

namespace MissionRow

def text (row : MissionRow) : Column → String
  | .roles => row.rolesJson
  | .workspaces => row.workspacesJson

/-- `UPDATE missions SET … WHERE mission_id=?`. -/
def write (row : MissionRow) (column : Column) (text : String) : MissionRow :=
  match column with
  | .roles => { row with rolesJson := text }
  | .workspaces => { row with workspacesJson := text }

/-- A column as `mission` returns it. -/
def read (row : MissionRow) (column : Column) : Option Json.Dict :=
  match Json.loads (row.text column) with
  | some (.obj ms) => some (.ofMembers ms)
  | _ => none

theorem text_write (row : MissionRow) (column other : Column) (text : String) :
    (row.write column text).text other = if column = other then text else row.text other := by
  cases column <;> cases other <;> rfl

end MissionRow

/-- The roles of a new mission. -/
def pendingRoles : Json.Dict := .ofMembers (Role.all.map fun role ↦ (role.value, .str "pending"))

/-- The row of a new mission, after `register_mission`. -/
def newMission : MissionRow := ⟨pendingRoles.toJson.dumps, (Json.Dict.ofMembers []).toJson.dumps⟩

/-! ## Updates -/

/-- What a call is going to write: one entry of one column. -/
structure Update where
  column : Column
  key : String
  value : Json
  sorted : value.Sorted

/-- `mark_role`. -/
def markRole (role : Role) (status : String) : Update :=
  ⟨.roles, role.value, .str status, trivial⟩

/-- `update_workspace`, with the resolved path and what was found there. -/
def updateWorkspace (key container : String) (snapshot : Json) (h : snapshot.Sorted) : Update where
  column := .workspaces
  key := key
  value := .obj [("container", .str container), ("snapshot", snapshot)]
  sorted := ⟨by simp only [List.map_cons, List.map_nil]; decide, trivial, h, trivial⟩

/-- The text that the call is going to write, from the row as it was read. Reading raises if either
column is malformed. -/
def Update.prepare (update : Update) (row : MissionRow) : Option String :=
  match row.read .roles, row.read .workspaces with
  | some roles, some workspaces =>
    match update.column with
    | .roles => some (roles.set update.key update.value).toJson.dumps
    | .workspaces => some (workspaces.set update.key update.value).toJson.dumps
  | _, _ => none

/-- The row, and the updates that were committed to it. -/
structure History where
  row : MissionRow
  log : List Update

/-- A call between its two phases, with the number of updates that it has seen. -/
structure Pending where
  update : Update
  text : String
  seen : Nat

def updateProtocol : TwoPhase.Protocol History Pending where
  drift _ _ := False
  reads h p := p.update.prepare h.row = some p.text ∧ p.seen = h.log.length
  commits h p h' := h' = ⟨h.row.write p.update.column p.text, h.log ++ [p.update]⟩

/-- No other key of the column was updated since the call has read it. -/
def Timely (h : History) (p : Pending) : Prop :=
  ∀ update ∈ h.log.drop p.seen, update.column = p.update.column → update.key = p.update.key

/-- Histories all of whose commits are timely. -/
def timelyProtocol : TwoPhase.Protocol History Pending :=
  { updateProtocol with commits := fun h p h' ↦ updateProtocol.commits h p h' ∧ Timely h p }

/-- The value that a key should have, from the value that it had at first. -/
def latest (start : Option Json) (log : List Update) (column : Column) (key : String) :
    Option Json :=
  log.foldl (fun value update ↦
    if update.column = column ∧ update.key = key then some update.value else value) start

/-- Every key has the value of its last update, or the one from the start. -/
def UpToDate (start : MissionRow) (h : History) : Prop :=
  ∀ column, ∃ first now, start.read column = some first ∧ h.row.read column = some now ∧
    ∀ key, now.get? key = latest (first.get? key) h.log column key

/-! ## What is kept -/

/-- The columns are the canonical texts of dicts, as every call writes them. -/
def MissionRow.Canonical (row : MissionRow) : Prop :=
  ∀ column, ∃ d : Json.Dict, d.toJson.Sorted ∧ row.text column = d.toJson.dumps

variable {row : MissionRow} {column : Column} {h h' : History} {p : Pending}
  {first : Column → Json.Dict}

theorem MissionRow.read_eq_some {d : Json.Dict} (hsorted : d.toJson.Sorted)
    (htext : row.text column = d.toJson.dumps) : row.read column = some d := by
  rw [read, htext, Json.loads_dumps hsorted]
  exact congrArg some (Json.Dict.ofMembers_members d)

theorem latest_append (start : Option Json) (log log' : List Update) (column : Column)
    (key : String) :
    latest start (log ++ log') column key = latest (latest start log column key) log' column key :=
  List.foldl_append

/-- Updates of other entries do not matter. -/
theorem latest_of_forall_ne {start : Option Json} {log : List Update} {key : String}
    (hne : ∀ update ∈ log, ¬(update.column = column ∧ update.key = key)) :
    latest start log column key = start := by
  induction log with
  | nil => rfl
  | cons update log ih =>
    obtain ⟨hupdate, hlog⟩ := List.forall_mem_cons.mp hne
    rw [latest, List.foldl_cons, if_neg hupdate]
    exact ih hlog

theorem latest_concat_of_ne {start : Option Json} {log : List Update} {update : Update}
    {key : String} (hne : ¬(update.column = column ∧ update.key = key)) :
    latest start (log ++ [update]) column key = latest start log column key := by
  rw [latest_append]
  exact latest_of_forall_ne (List.forall_mem_singleton.mpr hne)

/-- The columns are up to date with respect to the first values. -/
def Current (first : Column → Json.Dict) (h : History) : Prop :=
  ∀ column, ∃ now : Json.Dict, now.toJson.Sorted ∧ h.row.text column = now.toJson.dumps ∧
    ∀ key, now.get? key = latest ((first column).get? key) h.log column key

/-- What a call has read was up to date then. -/
def Knows (first : Column → Json.Dict) (p : Pending) (h : History) : Prop :=
  p.seen ≤ h.log.length ∧ ∃ d : Json.Dict, d.toJson.Sorted ∧
    p.text = (d.set p.update.key p.update.value).toJson.dumps ∧
    ∀ key, d.get? key =
      latest ((first p.update.column).get? key) (h.log.take p.seen) p.update.column key

theorem knows_of_reads (hcurrent : Current first h) (hread : updateProtocol.reads h p) :
    Knows first p h := by
  obtain ⟨hprepare, hseen⟩ := hread
  refine ⟨hseen.le, ?_⟩
  obtain ⟨roles, hroles, hrolesText, hrolesKeys⟩ := hcurrent .roles
  obtain ⟨workspaces, hworkspaces, hworkspacesText, hworkspacesKeys⟩ := hcurrent .workspaces
  rw [Update.prepare, MissionRow.read_eq_some hroles hrolesText,
    MissionRow.read_eq_some hworkspaces hworkspacesText] at hprepare
  rw [hseen, List.take_length]
  cases hcolumn : p.update.column with
  | roles =>
    simp only [hcolumn] at hprepare
    exact ⟨roles, hroles, (Option.some.inj hprepare).symm, hrolesKeys⟩
  | workspaces =>
    simp only [hcolumn] at hprepare
    exact ⟨workspaces, hworkspaces, (Option.some.inj hprepare).symm, hworkspacesKeys⟩

theorem Knows.concat (hknows : Knows first p h) (row : MissionRow) (update : Update) :
    Knows first p ⟨row, h.log ++ [update]⟩ := by
  obtain ⟨hseen, d, hsorted, htext, hkeys⟩ := hknows
  refine ⟨?_, d, hsorted, htext, ?_⟩
  · rw [List.length_append]
    exact hseen.trans (Nat.le_add_right _ _)
  · rw [List.take_append_of_le_length hseen]
    exact hkeys

/-- A timely commit. -/
theorem Current.commit (hcurrent : Current first h) (hknows : Knows first p h)
    (htimely : Timely h p) :
    Current first ⟨h.row.write p.update.column p.text, h.log ++ [p.update]⟩ := by
  intro column
  by_cases hcolumn : p.update.column = column
  · subst hcolumn
    obtain ⟨-, d, hsorted, htext, hkeys⟩ := hknows
    refine ⟨d.set p.update.key p.update.value, Json.Dict.sorted_set hsorted p.update.sorted, ?_, ?_⟩
    · rw [MissionRow.text_write, if_pos rfl, htext]
    · intro key
      rw [Json.Dict.get?_set]
      by_cases hkey : key = p.update.key
      · subst hkey
        rw [if_pos rfl, latest_append, latest, List.foldl_cons, List.foldl_nil, if_pos ⟨rfl, rfl⟩]
      · -- nothing has happened to this key since it was read
        rw [if_neg hkey, hkeys key]
        have hsplit : h.log.take p.seen ++ h.log.drop p.seen = h.log := List.take_append_drop _ _
        have hdrop : latest (latest ((first p.update.column).get? key) (h.log.take p.seen)
            p.update.column key) (h.log.drop p.seen) p.update.column key =
            latest ((first p.update.column).get? key) (h.log.take p.seen) p.update.column key :=
          latest_of_forall_ne fun update hupdate ⟨hcol, hother⟩ ↦
            hkey (hother.symm.trans (htimely update hupdate hcol))
        rw [← latest_append, hsplit] at hdrop
        rw [← hdrop, latest_concat_of_ne fun hupdate ↦ hkey hupdate.2.symm]
  · obtain ⟨now, hsorted, htext, hkeys⟩ := hcurrent column
    refine ⟨now, hsorted, ?_, fun key ↦ ?_⟩
    · rw [MissionRow.text_write, if_neg hcolumn, htext]
    · rw [latest_concat_of_ne fun hupdate ↦ hcolumn hupdate.1, hkeys key]

/-- **The columns are up to date in every history all of whose commits are timely.** -/
theorem updates_kept_of_timely {start : MissionRow} {c : TwoPhase.System History Pending}
    (hstart : start.Canonical) (h : TwoPhase.Reaches timelyProtocol ⟨start, []⟩ c) :
    UpToDate start c.shared := by
  choose first hsorted htext using hstart
  have hcommits : ∀ h p h', Current first h → Knows first p h → timelyProtocol.commits h p h' →
      Current first h' ∧ ∀ p', Knows first p' h → Knows first p' h' := by
    rintro h p h' hcurrent hknows ⟨rfl, htimely⟩
    exact ⟨hcurrent.commit hknows htimely, fun p' hp' ↦ hp'.concat _ _⟩
  have hfirst : Current first ⟨start, []⟩ := fun column ↦
    ⟨first column, hsorted column, htext column, fun _ ↦ rfl⟩
  have hreads : ∀ h p, Current first h → timelyProtocol.reads h p → Knows first p h :=
    fun h p hcurrent hread ↦ knows_of_reads hcurrent hread
  obtain ⟨hcurrent, -⟩ := h.invariant (Current first) (Knows first) hfirst
    (fun _ _ _ hdrift ↦ False.elim hdrift) hreads hcommits
  intro column
  obtain ⟨now, hnow, hnowText, hkeys⟩ := hcurrent column
  exact ⟨first column, now, MissionRow.read_eq_some (hsorted column) (htext column),
    MissionRow.read_eq_some hnow hnowText, hkeys⟩

/-! ## Two histories of a new mission -/

theorem sorted_pendingRoles : pendingRoles.toJson.Sorted := by
  rw [pendingRoles, Json.Dict.toJson_ofMembers]
  refine Json.sorted_mkObj fun m hm ↦ ?_
  obtain ⟨role, -, rfl⟩ := List.mem_map.mp hm
  trivial

theorem sorted_noWorkspaces : (Json.Dict.ofMembers []).toJson.Sorted :=
  ⟨List.Pairwise.nil, trivial⟩

theorem canonical_newMission : newMission.Canonical := by
  intro column
  cases column with
  | roles => exact ⟨pendingRoles, sorted_pendingRoles, rfl⟩
  | workspaces => exact ⟨.ofMembers [], sorted_noWorkspaces, rfl⟩

/-- Marking a role, by a call that has seen the given roles. -/
def markingRole (roles : Json.Dict) (role : Role) (status : String) (seen : Nat) : Pending :=
  ⟨markRole role status, (roles.set role.value (.str status)).toJson.dumps, seen⟩

/-- The mission with the given roles, after the given updates. -/
def withRoles (roles : Json.Dict) (log : List Update) : History :=
  ⟨⟨roles.toJson.dumps, newMission.workspacesJson⟩, log⟩

theorem reads_markingRole {roles : Json.Dict} (hroles : roles.toJson.Sorted) (log : List Update)
    (role : Role) (status : String) :
    updateProtocol.reads (withRoles roles log) (markingRole roles role status log.length) := by
  have hread : (withRoles roles log).row.read .roles = some roles :=
    MissionRow.read_eq_some hroles rfl
  have hworkspaces : (withRoles roles log).row.read .workspaces = some (.ofMembers []) :=
    MissionRow.read_eq_some sorted_noWorkspaces rfl
  refine ⟨?_, rfl⟩
  rw [Update.prepare, hread, hworkspaces]
  rfl

theorem commits_markingRole (roles seen : Json.Dict) (log : List Update) (role : Role)
    (status : String) (n : Nat) :
    updateProtocol.commits (withRoles roles log) (markingRole seen role status n)
      (withRoles (seen.set role.value (.str status)) (log ++ [markRole role status])) := rfl

/-- The roles after `mark_role` of a role that is started. -/
def started (roles : Json.Dict) (role : Role) : Json.Dict := roles.set role.value (.str "running")

theorem sorted_started {roles : Json.Dict} (hroles : roles.toJson.Sorted) (role : Role) :
    (started roles role).toJson.Sorted := Json.Dict.sorted_set hroles trivial

theorem withRoles_pendingRoles : withRoles pendingRoles [] = ⟨newMission, []⟩ := rfl

/-- One call after the other. -/
theorem reaches_oneByOne :
    TwoPhase.Reaches timelyProtocol ⟨newMission, []⟩
      ⟨withRoles (started (started pendingRoles .builder) .curator)
        [markRole .builder "running", markRole .curator "running"], []⟩ := by
  rw [← withRoles_pendingRoles]
  have hbuilder := reads_markingRole sorted_pendingRoles [] .builder "running"
  have hcurator := reads_markingRole (sorted_started sorted_pendingRoles .builder)
    [markRole .builder "running"] .curator "running"
  refine (((Relation.ReflTransGen.single (.read _ hbuilder)).tail
    (.commit [] [] _ ⟨commits_markingRole _ _ _ .builder "running" 0, ?_⟩)).tail
    (.read _ hcurator)).tail (.commit [] [] _ ⟨commits_markingRole _ _ _ .curator "running" 1, ?_⟩)
  · exact nofun
  · exact nofun

theorem oneByOne_upToDate :
    UpToDate newMission (withRoles (started (started pendingRoles .builder) .curator)
      [markRole .builder "running", markRole .curator "running"]) := by
  have h := updates_kept_of_timely canonical_newMission reaches_oneByOne
  exact h

/-- Both calls read before either writes. -/
theorem reaches_overlapping :
    TwoPhase.Reaches updateProtocol ⟨newMission, []⟩
      ⟨withRoles (started pendingRoles .curator)
        [markRole .builder "running", markRole .curator "running"], []⟩ := by
  rw [← withRoles_pendingRoles]
  have hbuilder := reads_markingRole sorted_pendingRoles [] .builder "running"
  have hcurator := reads_markingRole sorted_pendingRoles [] .curator "running"
  exact (((Relation.ReflTransGen.single (.read _ hbuilder)).tail (.read _ hcurator)).tail
    (.commit [_] [] _ (commits_markingRole _ _ _ .builder "running" 0))).tail
    (.commit [] [] _ (commits_markingRole _ _ _ .curator "running" 0))

theorem update_of_builder_lost :
    ∃ c, TwoPhase.Reaches updateProtocol ⟨newMission, []⟩ c ∧ c.pending = [] ∧
      ¬UpToDate newMission c.shared := by
  refine ⟨_, reaches_overlapping, rfl, fun h ↦ ?_⟩
  obtain ⟨first, now, -, hnow, hkeys⟩ := h .roles
  have hread : (withRoles (started pendingRoles .curator)
      [markRole .builder "running", markRole .curator "running"]).row.read .roles =
      some (started pendingRoles .curator) :=
    MissionRow.read_eq_some (sorted_started sorted_pendingRoles .curator) rfl
  have hsame : now = started pendingRoles .curator := Option.some.inj (hnow.symm.trans hread)
  have hbuilder := hkeys Role.builder.value
  have hpending : pendingRoles.get? Role.builder.value = some (.str "pending") := by
    decide
  rw [hsame, started, Json.Dict.get?_set, if_neg (by decide), hpending] at hbuilder
  -- its last update has set it to running
  exact absurd hbuilder (by simp [withRoles, latest, markRole, Role.value])

end HiveMind.Missions
