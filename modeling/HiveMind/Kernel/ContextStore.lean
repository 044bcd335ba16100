import HiveMind.Kernel.ContextManifests
import HiveMind.Lib.Dicts
import HiveMind.Lib.TextFiles

/-!
# The store of context manifests

A manifest is written to a file of its own, and the bindings of the records that it names to a
second file. Both are opened at their final path, with a mode that creates the file and fails if it
is there, and then written. A new store reads every `*.json` file below its directory, and refuses
all of them if one is refused.

A process can end between any two steps that change the file system, one of which is to write one
byte. A file that was not finished is never finished later, because the next writer finds it there
and compares.

* **`holds_session`**: what is held and what is remembered after a session are the manifests whose
  calls returned.
* **`restore_of_holds`**: a new store gets them back, if every manifest is readable: its numbers are
  in the range of a float, and none of its identifiers ends in `.json`, for which its directory
  would be taken for a file.
-/

open Raise Dicts

namespace HiveMind.Context

/-! ## Files and directories -/

/-- The names on the way to a file or directory from the root of the store. -/
abbrev Location := List String

structure Disk where
  directories : List Location
  files : List (Location × List UInt8)
  deriving DecidableEq

/-- A step that changes the file system. -/
inductive FsStep where
  | makeDirectory (path : Location)
  | createFile (path : Location)
  | writeByte (path : Location) (byte : UInt8)
  deriving DecidableEq

def FsStep.path : FsStep → Location
  | makeDirectory path | createFile path | writeByte path _ => path

namespace Disk

def read (disk : Disk) (path : Location) : Option (List UInt8) :=
  @List.lookup _ _ instBEqOfDecidableEq path disk.files

def apply (disk : Disk) : FsStep → Disk
  | .makeDirectory path =>
    if path ∈ disk.directories then disk
    else { disk with directories := disk.directories ++ [path] }
  | .createFile path => { disk with files := setItem path [] disk.files }
  | .writeByte path byte =>
    { disk with files := setItem path ((disk.read path).getD [] ++ [byte]) disk.files }

end Disk

/-- The steps of `path.parent.mkdir(parents=True, exist_ok=True)`. -/
def directoriesOf (path : Location) : List FsStep := path.dropLast.inits.map .makeDirectory

/-- The steps of a file that is opened for exclusive creation and written. -/
def writing (path : Location) (bytes : List UInt8) : List FsStep :=
  .createFile path :: bytes.map (.writeByte path)

/-- A name that `*.json` matches. -/
def isJsonName (name : String) : Bool := ".json".toList.isSuffixOf name.toList

def isJsonPath (path : Location) : Bool := path.getLast?.any isJsonName

/-! ### What steps do to the file system -/

namespace Disk

variable {disk : Disk} {steps : List FsStep} {path q : Location} {bytes : List UInt8}

theorem mem_directories_foldl :
    q ∈ (steps.foldl apply disk).directories ↔
      q ∈ disk.directories ∨ .makeDirectory q ∈ steps := by
  induction steps generalizing disk with
  | nil => simp
  | cons step steps ih =>
    rw [List.foldl_cons, ih, List.mem_cons]
    have hstep : q ∈ (disk.apply step).directories ↔
        q ∈ disk.directories ∨ .makeDirectory q = step := by
      cases step with
      | makeDirectory path =>
        rw [apply, FsStep.makeDirectory.injEq]
        split
        · next hmem =>
          constructor
          · exact .inl
          · rintro (h | rfl)
            · exact h
            · exact hmem
        · rw [List.mem_append, List.mem_singleton]
      | createFile path => simp [apply]
      | writeByte path byte => simp [apply]
    rw [hstep, or_assoc]

theorem read_setItem (files : List (Location × List UInt8)) (directories : List Location) :
    read ⟨directories, setItem path bytes files⟩ q =
      if q = path then some bytes else read ⟨directories, files⟩ q :=
  lookup_setItem path q bytes files

/-- Steps on other files, and directories that are made, leave what a file holds. -/
theorem read_foldl_of_ne
    (h : ∀ step ∈ steps, (∃ made, step = .makeDirectory made) ∨ step.path ≠ q) :
    (steps.foldl apply disk).read q = disk.read q := by
  induction steps generalizing disk with
  | nil => rfl
  | cons step steps ih =>
    rw [List.foldl_cons, ih fun s hs ↦ h s (List.mem_cons_of_mem step hs)]
    obtain ⟨made, rfl⟩ | hne := h step List.mem_cons_self
    · rw [apply]
      split <;> rfl
    · cases step with
      | makeDirectory made =>
        rw [apply]
        split <;> rfl
      | createFile path => exact (read_setItem _ _).trans (if_neg (Ne.symm hne))
      | writeByte path byte => exact (read_setItem _ _).trans (if_neg (Ne.symm hne))

theorem read_foldl_directoriesOf :
    ((directoriesOf path).foldl apply disk).read q = disk.read q := by
  refine read_foldl_of_ne fun step hstep ↦ ?_
  obtain ⟨made, -, rfl⟩ := List.mem_map.mp hstep
  exact .inl ⟨made, rfl⟩

theorem read_foldl_writing (path : Location) (bytes : List UInt8) (disk : Disk) :
    ((writing path bytes).foldl apply disk).read path = some bytes := by
  have hbytes : ∀ (disk : Disk) (start : List UInt8), disk.read path = some start →
      ((bytes.map (FsStep.writeByte path)).foldl apply disk).read path = some (start ++ bytes) := by
    induction bytes with
    | nil => intro disk start h; simpa using h
    | cons byte bytes ih =>
      intro disk start h
      rw [List.map_cons, List.foldl_cons, ih _ (start ++ [byte])]
      · rw [List.append_assoc, List.singleton_append]
      · rw [apply, h]
        exact (read_setItem _ _).trans (if_pos rfl)
  exact hbytes _ [] ((read_setItem _ _).trans (if_pos rfl))

theorem read_foldl_writing_of_ne (h : q ≠ path) :
    ((writing path bytes).foldl apply disk).read q = disk.read q := by
  refine read_foldl_of_ne fun step hstep ↦ .inr ?_
  rcases List.mem_cons.mp hstep with rfl | hstep
  · exact h.symm
  · obtain ⟨byte, -, rfl⟩ := List.mem_map.mp hstep
    exact h.symm

theorem foldl_apply_of_made
    (h : ∀ step ∈ steps, ∃ made ∈ disk.directories, step = .makeDirectory made) :
    steps.foldl apply disk = disk := by
  induction steps with
  | nil => rfl
  | cons step steps ih =>
    obtain ⟨made, hmade, rfl⟩ := h step List.mem_cons_self
    rw [List.foldl_cons, apply, if_pos hmade]
    exact ih fun s hs ↦ h s (List.mem_cons_of_mem _ hs)

end Disk

/-! ## The store -/

section Store

variable [Hash256]

/-- A process with a store: the file system, the number of steps after which the process is
stopped, if it is, and the two dicts of the store. -/
structure StoreProcess where
  disk : Disk
  left : Option Nat
  manifests : List (String × ContextManifest)
  bindings : List (String × List ContextRecordBinding)

/-- `ContextManifestStore(root)`, in a new process. -/
def openStore (disk : Disk) : StoreProcess := ⟨disk, none, [], []⟩

abbrev StoreAction := EStateM ContextFailure StoreProcess

/-- Take one step, unless the process is stopped before it. -/
def takeStep (step : FsStep) : StoreAction Unit := fun p ↦
  match p.left with
  | none => .ok () { p with disk := p.disk.apply step }
  | some 0 => .error .stopped p
  | some (n + 1) => .ok () { p with disk := p.disk.apply step, left := some n }

def perform : List FsStep → StoreAction Unit
  | [] => pure ()
  | step :: steps => do
    takeStep step
    perform steps

/-- `value.removeprefix("sha256:")`. -/
def withoutAlgorithm (digest : String) : String :=
  if "sha256:".toList.isPrefixOf digest.toList then String.ofList (digest.toList.drop 7) else digest

/-- `_path`. -/
def manifestPath (m : ContextManifest) : Location :=
  ["context", m.missionId, m.workId, m.attemptId, withoutAlgorithm m.manifestDigest ++ ".json"]

/-- `_binding_path`. -/
def bindingPath (digest : String) : Location :=
  ["context", "bindings", withoutAlgorithm digest ++ ".json"]

/-- The document of a binding receipt. -/
def receiptDocument (digest : String) (bindings : List ContextRecordBinding) : Json := .obj [
  ("bindings", .arr (bindings.map fun b ↦ .obj b.document)),
  ("manifest_digest", .str digest)]

/-- Make the directories of a file, and create the file or compare what is in it. A directory at
its place cannot be read. -/
def writeOnce (path : Location) (bytes : List UInt8) (refusal : String) : StoreAction Unit := do
  perform (directoriesOf path)
  let p ← get
  if path ∈ p.disk.directories then throw .osError
  match p.disk.read path with
  | none => perform (writing path bytes)
  | some existing => if existing ≠ bytes then throw (.valueError refusal)

/-- `_persist`. -/
def persist (m : ContextManifest) : StoreAction Unit :=
  writeOnce (manifestPath m) (encodeText m.encoded) "context manifest cannot be rewritten"

/-- `_persist_bindings`. -/
def persistBindings (digest : String) (bindings : List ContextRecordBinding) : StoreAction Unit :=
  writeOnce (bindingPath digest) (encodeText (receiptDocument digest bindings).dumps)
    "context bindings cannot be rewritten"

/-- What `store` checks before it writes. -/
def checkStore (p : StoreProcess) (m : ContextManifest) (bindings : List ContextRecordBinding) :
    Except ContextFailure Unit := do
  if m.manifestDigest ≠ manifestDigest m then
    throw (.valueError "context manifest digest is invalid")
  if (p.manifests.lookup m.manifestDigest).any (· ≠ m) then
    throw (.valueError "context manifest digest is already bound")
  if bindings.map (·.fields.recordId) ≠ m.records then
    throw (.valueError "context bindings must cover warm and cold records in manifest order")
  if bindings.any (·.fields.manifestDigest ≠ m.manifestDigest) then
    throw (.valueError "context binding references the wrong manifest")
  if (p.bindings.lookup m.manifestDigest).any (· ≠ bindings) then
    throw (.valueError "context bindings cannot be rewritten")

/-- `self._manifests[digest] = manifest` and the same for the bindings. -/
def remember (m : ContextManifest) (bindings : List ContextRecordBinding) (p : StoreProcess) :
    StoreProcess :=
  { p with
    manifests := setItem m.manifestDigest m p.manifests
    bindings := setItem m.manifestDigest bindings p.bindings }

/-- `ContextManifestStore.store`. -/
def store (m : ContextManifest) (bindings : List ContextRecordBinding) : StoreAction Unit := do
  let p ← get
  lift (checkStore p m bindings)
  persist m
  if bindings ≠ [] then persistBindings m.manifestDigest bindings
  modify (remember m bindings)

/-! ### Restoring -/

/-- `read_text` and `json.loads`. -/
def loadDocument (bytes : List UInt8) : Except ContextFailure Json :=
  match (readText bytes).bind Json.loads with
  | some document => .ok document
  | none => .error (.valueError "not a JSON text")

/-- `_restore_bindings`, from the document of the receipt. -/
def receiptBindings (m : ContextManifest) (document : Json) :
    Except ContextFailure (List ContextRecordBinding) :=
  match document with
  | .obj [("bindings", .arr xs), ("manifest_digest", .str digest)] =>
    if digest ≠ m.manifestDigest then
      .error (.valueError "context binding receipt is malformed")
    else
      match xs.mapM Json.asObj? with
      | none => .error (.valueError "context binding receipt is malformed")
      | some items => items.mapM ContextRecordBinding.fromDocument
  | _ => .error (.valueError "context binding receipt is malformed")

/-- `_restore_bindings`. -/
def restoreBindings (disk : Disk) (m : ContextManifest) :
    Except ContextFailure (List ContextRecordBinding) :=
  match disk.read (bindingPath m.manifestDigest) with
  | none =>
    if m.records ≠ [] then
      .error (.valueError "context manifest is missing its binding receipt")
    else .ok []
  | some bytes => do
    let document ← loadDocument bytes
    receiptBindings m document

/-- The manifest and the bindings of one file. A directory cannot be read as a text. -/
def readManifest (disk : Disk) (path : Location) :
    Except ContextFailure (ContextManifest × List ContextRecordBinding) := do
  match disk.read path with
  | none => .error .osError
  | some bytes =>
    let document ← loadDocument bytes
    let m ← ContextManifest.fromDocument document
    let bindings ← restoreBindings disk m
    return (m, bindings)

/-- The body of the loop of `restore`. -/
def restoreFile (path : Location) : StoreAction Unit := do
  let p ← get
  match readManifest p.disk path with
  | .ok (m, bindings) => store m bindings
  | .error .overflowError => throw .overflowError
  | .error _ => throw (.valueError ("context manifest is corrupt: " ++ "/".intercalate path))

/-- `sorted((root / "context").rglob("*.json"))`, without what is below a directory `bindings`. -/
def manifestFiles (disk : Disk) : List Location :=
  ((disk.directories ++ disk.files.map Prod.fst).filter fun path ↦
    path.head? = some "context" ∧ path.tail ≠ [] ∧ isJsonPath path ∧ "bindings" ∉ path.tail)
    |>.mergeSort (· ≤ ·)

def restoreFiles : List Location → StoreAction Unit
  | [] => pure ()
  | path :: paths => do
    restoreFile path
    restoreFiles paths

/-- `ContextManifestStore.manifests`. -/
def manifests (p : StoreProcess) : List ContextManifest :=
  (p.manifests.mergeSort (·.1 ≤ ·.1)).map Prod.snd

/-- `ContextManifestStore.restore`. -/
def restore : StoreAction (List ContextManifest) := do
  let p ← get
  if ["context"] ∉ p.disk.directories then return []
  restoreFiles (manifestFiles p.disk)
  return manifests (← get)

/-! ## Runs -/

/-- A manifest with its bindings, as the compiler makes them: the digest is that of the manifest,
and the bindings are those of its records in their order. -/
structure Compiled where
  manifest : ContextManifest
  bindings : List ContextRecordBinding
  digest_eq : manifest.manifestDigest = manifestDigest manifest
  covers : bindings.map (·.fields.recordId) = manifest.records
  named : ∀ b ∈ bindings, b.fields.manifestDigest = manifest.manifestDigest

namespace Compiled

def digest (c : Compiled) : String := c.manifest.manifestDigest

def path (c : Compiled) : Location := manifestPath c.manifest

def bytes (c : Compiled) : List UInt8 := encodeText c.manifest.encoded

def receiptPath (c : Compiled) : Location := bindingPath c.digest

def receiptBytes (c : Compiled) : List UInt8 :=
  encodeText (receiptDocument c.digest c.bindings).dumps

def call (c : Compiled) : StoreAction Unit := store c.manifest c.bindings

end Compiled

/-- The process after a call, and the calls that returned. -/
def after (run : StoreProcess × List Compiled) (c : Compiled) : StoreProcess × List Compiled :=
  match c.call run.1 with
  | .ok _ p => (p, run.2 ++ [c])
  | .error _ p => (p, run.2)

/-- Calls on a new store in an empty directory. -/
def session (calls : List Compiled) : StoreProcess × List Compiled :=
  calls.foldl after (openStore ⟨[], []⟩, [])

/-- The files that are left when the process is stopped in a call, after so many steps of it. -/
def interrupted (p : StoreProcess) (c : Compiled) (cut : Nat) : Disk :=
  (final (c.call { p with left := some cut })).disk

/-- A new store is restored with every manifest whose call returned, with its bindings, and takes
the interrupted call again. -/
def Survives (calls : List Compiled) (last : Compiled) (cut : Nat) : Prop :=
  ∃ restored p p', restore (openStore (interrupted (session calls).1 last cut)) = .ok restored p ∧
    (∀ c ∈ (session calls).2,
      c.manifest ∈ restored ∧ p.bindings.lookup c.digest = some c.bindings) ∧
    last.call p = .ok () p'

/-! ## Taking steps -/

section Steps

variable {p : StoreProcess} {steps steps' : List FsStep}

/-- The process after as many of the steps as it takes. -/
def performed (steps : List FsStep) (p : StoreProcess) : StoreProcess :=
  match p.left with
  | none => { p with disk := steps.foldl Disk.apply p.disk }
  | some n =>
    { p with
      disk := (steps.take n).foldl Disk.apply p.disk
      left := some (n - steps.length) }

/-- The process takes all of the steps. -/
def Suffices (steps : List FsStep) (p : StoreProcess) : Prop := ∀ n ∈ p.left, steps.length ≤ n

theorem suffices_of_none (h : p.left = none) : Suffices steps p := by
  intro n hn
  rw [h] at hn
  exact nomatch hn

theorem perform_of_suffices (h : Suffices steps p) :
    perform steps p = .ok () (performed steps p) := by
  induction steps generalizing p with
  | nil =>
    obtain ⟨disk, _ | n, manifests, bindings⟩ := p
    · rfl
    · simp only [performed, List.take_nil, List.foldl_nil, List.length_nil, Nat.sub_zero]
      rfl
  | cons step steps ih =>
    obtain ⟨disk, _ | n, manifests, bindings⟩ := p
    · rw [perform, run_bind_of_ok (show takeStep step _ = .ok () _ from rfl),
        ih (suffices_of_none rfl)]
      rfl
    · have hn : steps.length + 1 ≤ n := h n rfl
      obtain ⟨n, rfl⟩ : ∃ k, n = k + 1 := ⟨n - 1, by omega⟩
      have hstep : takeStep step ⟨disk, some (n + 1), manifests, bindings⟩ =
        .ok () ⟨disk.apply step, some n, manifests, bindings⟩ := rfl
      have hrest : Suffices steps ⟨disk.apply step, some n, manifests, bindings⟩ := by
        rintro k ⟨⟩
        omega
      rw [perform, run_bind_of_ok hstep, ih hrest]
      simp only [performed, List.take_succ_cons, List.foldl_cons, List.length_cons,
        Nat.add_sub_add_right]

theorem perform_of_not_suffices (h : ¬Suffices steps p) :
    perform steps p = .error .stopped (performed steps p) := by
  induction steps generalizing p with
  | nil => exact absurd (fun _ _ ↦ Nat.zero_le _) h
  | cons step steps ih =>
    obtain ⟨disk, _ | _ | n, manifests, bindings⟩ := p
    · exact absurd (suffices_of_none rfl) h
    · have hstep : takeStep step ⟨disk, some 0, manifests, bindings⟩ =
        .error .stopped ⟨disk, some 0, manifests, bindings⟩ := rfl
      rw [perform, run_bind_of_error hstep]
      simp only [performed, List.take_zero, List.foldl_nil, Nat.zero_sub]
    · have hstep : takeStep step ⟨disk, some (n + 1), manifests, bindings⟩ =
        .ok () ⟨disk.apply step, some n, manifests, bindings⟩ := rfl
      have hrest : ¬Suffices steps ⟨disk.apply step, some n, manifests, bindings⟩ := by
        refine fun hs ↦ h ?_
        rintro k ⟨⟩
        have := hs n rfl
        rw [List.length_cons]
        omega
      rw [perform, run_bind_of_ok hstep, ih hrest]
      simp only [performed, List.take_succ_cons, List.foldl_cons, List.length_cons,
        Nat.add_sub_add_right]

theorem perform_append (p : StoreProcess) :
    perform (steps ++ steps') p = (perform steps >>= fun _ ↦ perform steps') p := by
  induction steps generalizing p with
  | nil => rfl
  | cons step steps ih =>
    rw [List.cons_append, perform, perform, bind_assoc]
    cases hstep : takeStep step p with
    | ok u q => rw [run_bind_of_ok hstep, run_bind_of_ok hstep, ih]
    | error e q => rw [run_bind_of_error hstep, run_bind_of_error hstep]

theorem exists_performed (steps : List FsStep) (p : StoreProcess) :
    ∃ taken, taken <+: steps ∧ (performed steps p).disk = taken.foldl Disk.apply p.disk := by
  rw [performed]
  split
  · exact ⟨steps, List.prefix_rfl, rfl⟩
  · exact ⟨_, List.take_prefix _ _, rfl⟩

theorem performed_of_none (h : p.left = none) :
    performed steps p = { p with disk := steps.foldl Disk.apply p.disk } := by
  rw [performed, h]

end Steps

/-! ## Paths -/

section Paths

variable {c c' : Compiled} {q : Location}

omit [Hash256] in
private theorem withoutAlgorithm_inj {digest digest' : String} (h : isDigest digest)
    (h' : isDigest digest') (heq : withoutAlgorithm digest = withoutAlgorithm digest') :
    digest = digest' := by
  have hsplit : ∀ {s : String}, isDigest s →
      s.toList = "sha256:".toList ++ (withoutAlgorithm s).toList := by
    intro s hs
    have htake : s.toList.take 7 = "sha256:".toList :=
      eq_of_beq (Bool.and_eq_true_iff.mp hs).1
    have hstarts : "sha256:".toList.isPrefixOf s.toList = true := by
      rw [List.isPrefixOf_iff_prefix, List.prefix_iff_eq_take]
      exact htake.symm
    have hrest : withoutAlgorithm s = String.ofList (s.toList.drop 7) := if_pos hstarts
    rw [hrest, ← htake]
    exact (List.take_append_drop 7 s.toList).symm.trans
      (congrArg (s.toList.take 7 ++ ·) String.toList_ofList.symm)
  rw [← String.toList_inj, hsplit h, hsplit h', heq]

omit [Hash256] in
private theorem isJsonName_append (name : String) : isJsonName (name ++ ".json") = true := by
  rw [isJsonName, List.isSuffixOf_iff_suffix, String.toList_append]
  exact List.suffix_append _ _

omit [Hash256] in
private theorem append_json_inj {name name' : String} (h : name ++ ".json" = name' ++ ".json") :
    name = name' := by
  rw [← String.toList_inj, String.toList_append, String.toList_append] at h
  exact String.toList_inj.mp (List.append_cancel_right h)

theorem Compiled.isDigest_digest (c : Compiled) : isDigest c.digest :=
  c.manifest.valid.2.2.2.2.2.2.2

theorem Compiled.digest_of_path (h : c.path = c'.path) : c.digest = c'.digest := by
  simp only [Compiled.path, manifestPath, List.cons.injEq, and_true, true_and] at h
  exact withoutAlgorithm_inj c.isDigest_digest c'.isDigest_digest (append_json_inj h.2.2.2)

omit [Hash256] in
private theorem digest_of_bindingPath {digest digest' : String} (hd : isDigest digest)
    (hd' : isDigest digest') (h : bindingPath digest = bindingPath digest') : digest = digest' := by
  simp only [bindingPath, List.cons.injEq, and_true, true_and] at h
  exact withoutAlgorithm_inj hd hd' (append_json_inj h)

omit [Hash256] in
theorem manifestPath_ne_bindingPath (m : ContextManifest) (digest : String) :
    manifestPath m ≠ bindingPath digest :=
  fun h ↦ absurd (congrArg List.length h) (by simp [manifestPath, bindingPath])

omit [Hash256] in
theorem isJsonPath_manifestPath (m : ContextManifest) : isJsonPath (manifestPath m) = true :=
  isJsonName_append _

omit [Hash256] in
/-- No identifier is the name of the directory of the bindings. -/
theorem ne_bindings (m : ContextManifest) :
    m.missionId ≠ "bindings" ∧ m.workId ≠ "bindings" ∧ m.attemptId ≠ "bindings" := by
  obtain ⟨hmission, hwork, hattempt, -⟩ := m.valid
  refine ⟨?_, ?_, ?_⟩
  · intro h
    rw [h] at hmission
    exact absurd hmission (by decide)
  · intro h
    rw [h] at hwork
    exact absurd hwork (by decide)
  · intro h
    rw [h] at hattempt
    exact absurd hattempt (by decide)

omit [Hash256] in
theorem bindings_notMem_manifestPath (m : ContextManifest) :
    "bindings" ∉ (manifestPath m).tail := by
  obtain ⟨hmission, hwork, hattempt⟩ := ne_bindings m
  have hname : withoutAlgorithm m.manifestDigest ++ ".json" ≠ "bindings" := by
    intro h
    have := isJsonName_append (withoutAlgorithm m.manifestDigest)
    rw [h] at this
    exact absurd this (by decide)
  simp only [manifestPath, List.tail_cons, List.mem_cons, List.not_mem_nil, or_false, not_or]
  exact ⟨hmission.symm, hwork.symm, hattempt.symm, hname.symm⟩

/-- A directory is never where a file goes. -/
def IsParent (q : Location) : Prop :=
  q.length ≤ 4 ∧ (q.length = 3 → q.tail.head? ≠ some "bindings")

omit [Hash256] in
theorem IsParent.ne_manifestPath (h : IsParent q) (m : ContextManifest) : q ≠ manifestPath m := by
  rintro rfl
  exact absurd h.1 (by simp [manifestPath])

omit [Hash256] in
theorem IsParent.ne_bindingPath (h : IsParent q) (digest : String) : q ≠ bindingPath digest := by
  rintro rfl
  exact h.2 rfl rfl

omit [Hash256] in
theorem makeDirectory_mem_directoriesOf {path : Location} :
    FsStep.makeDirectory q ∈ directoriesOf path ↔ q ∈ path.dropLast.inits := by
  simp [directoriesOf]

omit [Hash256] in
theorem makeDirectory_notMem_writing {path : Location} {bytes : List UInt8} :
    FsStep.makeDirectory q ∉ writing path bytes := by
  simp [writing]

omit [Hash256] in
theorem inits_manifestPath (m : ContextManifest) :
    (manifestPath m).dropLast.inits = [[], ["context"], ["context", m.missionId],
      ["context", m.missionId, m.workId], ["context", m.missionId, m.workId, m.attemptId]] := rfl

omit [Hash256] in
theorem inits_bindingPath (digest : String) :
    (bindingPath digest).dropLast.inits = [[], ["context"], ["context", "bindings"]] := rfl

end Paths

/-! ## The steps of a call -/

namespace Compiled

/-- The steps that write the manifest. -/
def manifestSteps (c : Compiled) : List FsStep := directoriesOf c.path ++ writing c.path c.bytes

/-- The steps that write the bindings, if there are some. -/
def receiptSteps (c : Compiled) : List FsStep :=
  if c.bindings = [] then []
  else directoriesOf c.receiptPath ++ writing c.receiptPath c.receiptBytes

/-- The steps of a call that finds neither file. -/
def steps (c : Compiled) : List FsStep := c.manifestSteps ++ c.receiptSteps

/-- The files that a call writes. -/
def Writes (c : Compiled) (path : Location) (bytes : List UInt8) : Prop :=
  (path = c.path ∧ bytes = c.bytes) ∨
    (c.bindings ≠ [] ∧ path = c.receiptPath ∧ bytes = c.receiptBytes)

/-- The manifest can be read back, and no directory on the way to it has the name of a file. -/
def Readable (c : Compiled) : Prop :=
  c.manifest.Convertible ∧ isJsonName c.manifest.missionId = false ∧
    isJsonName c.manifest.workId = false ∧ isJsonName c.manifest.attemptId = false

variable {c c' : Compiled} {q : Location}

theorem ext_iff (h : c.manifest = c'.manifest) (hb : c.bindings = c'.bindings) : c = c' := by
  obtain ⟨m, b, _, _, _⟩ := c
  obtain ⟨m', b', _, _, _⟩ := c'
  subst h hb
  rfl

theorem path_ne_receiptPath : c.path ≠ c'.receiptPath := manifestPath_ne_bindingPath _ _

theorem digest_of_receiptPath (h : c.receiptPath = c'.receiptPath) : c.digest = c'.digest :=
  digest_of_bindingPath c.isDigest_digest c'.isDigest_digest h

theorem makeDirectory_mem_steps :
    .makeDirectory q ∈ c.steps ↔
      q ∈ c.path.dropLast.inits ∨ c.bindings ≠ [] ∧ q ∈ c.receiptPath.dropLast.inits := by
  rw [steps, manifestSteps, List.mem_append, List.mem_append, makeDirectory_mem_directoriesOf,
    or_iff_left makeDirectory_notMem_writing, receiptSteps]
  split
  · next h => simp [h]
  · next h =>
    rw [List.mem_append, makeDirectory_mem_directoriesOf, or_iff_left makeDirectory_notMem_writing]
    simp [h]

theorem isParent_of_mem_steps (h : .makeDirectory q ∈ c.steps) : IsParent q := by
  obtain ⟨hmission, -⟩ := ne_bindings c.manifest
  rw [makeDirectory_mem_steps] at h
  rcases h with h | ⟨-, h⟩
  · rw [path, inits_manifestPath] at h
    simp only [List.mem_cons, List.not_mem_nil, or_false] at h
    obtain rfl | rfl | rfl | rfl | rfl := h
    all_goals simp [IsParent, hmission]
  · rw [receiptPath, inits_bindingPath] at h
    simp only [List.mem_cons, List.not_mem_nil, or_false] at h
    obtain rfl | rfl | rfl := h
    all_goals simp [IsParent]

theorem Readable.isJsonPath_eq_false (hc : c.Readable) (h : .makeDirectory q ∈ c.steps) :
    isJsonPath q = false := by
  obtain ⟨-, hmission, hwork, hattempt⟩ := hc
  have hcontext : isJsonName "context" = false := by decide
  have hbindings : isJsonName "bindings" = false := by decide
  rw [makeDirectory_mem_steps] at h
  rcases h with h | ⟨-, h⟩
  · rw [path, inits_manifestPath] at h
    simp only [List.mem_cons, List.not_mem_nil, or_false] at h
    obtain rfl | rfl | rfl | rfl | rfl := h
    · rfl
    · exact hcontext
    · exact hmission
    · exact hwork
    · exact hattempt
  · rw [receiptPath, inits_bindingPath] at h
    simp only [List.mem_cons, List.not_mem_nil, or_false] at h
    obtain rfl | rfl | rfl := h
    · rfl
    · exact hcontext
    · exact hbindings

end Compiled

/-! ## One call -/

section Calls

variable {p p' : StoreProcess} {c c' : Compiled} {path : Location} {bytes : List UInt8}

theorem checkStore_eq_ok (p : StoreProcess) (c : Compiled) :
    checkStore p c.manifest c.bindings = .ok () ↔
      (∀ m ∈ p.manifests.lookup c.digest, m = c.manifest) ∧
        ∀ bindings ∈ p.bindings.lookup c.digest, bindings = c.bindings := by
  have hnamed : c.bindings.any (·.fields.manifestDigest ≠ c.manifest.manifestDigest) = false := by
    rw [List.any_eq_false]
    intro b hb
    simpa using c.named b hb
  rw [checkStore]
  simp only [c.digest_eq.symm, c.covers, hnamed, ne_eq, not_true_eq_false, Bool.false_eq_true,
    if_false, guard_eq_ok, check_eq_ok]
  simp [Compiled.digest, Option.any_eq_true]

/-- A file that is not there is created and written. -/
theorem writeOnce_of_absent (refusal : String) (hread : p.disk.read path = none)
    (hdir : path ∉ p.disk.directories) (hparent : path ∉ path.dropLast.inits) :
    writeOnce path bytes refusal p = perform (directoriesOf path ++ writing path bytes) p := by
  rw [writeOnce, perform_append]
  by_cases h : Suffices (directoriesOf path) p
  · rw [run_bind_of_ok (perform_of_suffices h), run_bind_of_ok (perform_of_suffices h)]
    -- the directories that were made are not at the place of the file
    obtain ⟨steps, hsteps, hdisk⟩ := exists_performed (directoriesOf path) p
    have hread' : (performed (directoriesOf path) p).disk.read path = none := by
      rw [hdisk, Disk.read_foldl_of_ne, hread]
      intro step hstep
      obtain ⟨made, -, rfl⟩ := List.mem_map.mp (hsteps.subset hstep)
      exact .inl ⟨made, rfl⟩
    have hdir' : path ∉ (performed (directoriesOf path) p).disk.directories := by
      rw [hdisk, Disk.mem_directories_foldl]
      rintro (hmem | hmem)
      · exact hdir hmem
      · exact hparent (makeDirectory_mem_directoriesOf.mp (hsteps.subset hmem))
    rw [run_bind_of_ok (run_get_eq_ok.mpr ⟨rfl, rfl⟩)]
    simp only [if_neg hdir', hread']
  · rw [run_bind_of_error (perform_of_not_suffices h), run_bind_of_error (perform_of_not_suffices h)]

/-- A file that holds the same is left alone, wherever the process stops. -/
theorem writeOnce_of_same (refusal : String) (hread : p.disk.read path = some bytes)
    (hdir : path ∉ p.disk.directories)
    (hmade : ∀ parent ∈ path.dropLast.inits, parent ∈ p.disk.directories) :
    ∃ p', p'.disk = p.disk ∧ p'.manifests = p.manifests ∧ p'.bindings = p.bindings ∧
      (p.left = none → p'.left = none) ∧
      ((writeOnce path bytes refusal p = .ok () p') ∨
        p.left ≠ none ∧ writeOnce path bytes refusal p = .error .stopped p') := by
  have hsame : ∀ n, ((directoriesOf path).take n).foldl Disk.apply p.disk = p.disk := by
    refine fun n ↦ Disk.foldl_apply_of_made fun step hstep ↦ ?_
    obtain ⟨made, hmem, rfl⟩ := List.mem_map.mp (List.mem_of_mem_take hstep)
    exact ⟨made, hmade made hmem, rfl⟩
  have hdisk : (performed (directoriesOf path) p).disk = p.disk := by
    rw [performed]
    split
    · have := hsame (directoriesOf path).length
      rwa [List.take_length] at this
    · exact hsame _
  refine ⟨performed (directoriesOf path) p, hdisk, ?_, ?_, ?_, ?_⟩
  · rw [performed]
    split <;> rfl
  · rw [performed]
    split <;> rfl
  · intro hleft
    rw [performed_of_none hleft]
    exact hleft
  · rw [writeOnce]
    by_cases h : Suffices (directoriesOf path) p
    · left
      rw [run_bind_of_ok (perform_of_suffices h), run_bind_of_ok (run_get_eq_ok.mpr ⟨rfl, rfl⟩)]
      simp only [hdisk, if_neg hdir, hread, ne_eq, not_true_eq_false, if_false]
      rfl
    · right
      refine ⟨fun hleft ↦ h (suffices_of_none hleft), ?_⟩
      rw [run_bind_of_error (perform_of_not_suffices h)]

/-- What the dicts of a store hold. -/
structure Remembers (p : StoreProcess) (stored : List Compiled) : Prop where
  manifests : ∀ digest m,
    p.manifests.lookup digest = some m ↔ ∃ c ∈ stored, c.digest = digest ∧ c.manifest = m
  bindings : ∀ digest b,
    p.bindings.lookup digest = some b ↔ ∃ c ∈ stored, c.digest = digest ∧ c.bindings = b

/-- What the file system holds. Only a directory on the way to a manifest can have a name that ends
in `.json`. -/
structure Holds (disk : Disk) (stored : List Compiled) : Prop where
  files : ∀ path bytes, disk.read path = some bytes ↔ ∃ c ∈ stored, c.Writes path bytes
  made : ∀ c ∈ stored, ∀ q, .makeDirectory q ∈ c.steps → q ∈ disk.directories
  parents : ∀ q ∈ disk.directories, IsParent q
  named : ∀ q ∈ disk.directories, isJsonPath q = true → ∃ c ∈ stored, .makeDirectory q ∈ c.steps
  distinct : ∀ c ∈ stored, ∀ c' ∈ stored, c.digest = c'.digest → c = c'

variable {stored known : List Compiled}

theorem Remembers.remember (h : Remembers p stored)
    (hcheck : checkStore p c.manifest c.bindings = .ok ()) :
    Remembers (remember c.manifest c.bindings p) (stored ++ [c]) := by
  obtain ⟨hmanifest, hbindings⟩ := (checkStore_eq_ok p c).mp hcheck
  constructor
  · intro digest m
    change (setItem c.digest c.manifest p.manifests).lookup digest = some m ↔ _
    rw [lookup_setItem]
    split
    · next heq =>
      subst heq
      constructor
      · intro hm
        exact ⟨c, List.mem_concat_self, rfl, Option.some.inj hm⟩
      · rintro ⟨c', hc', hdigest, rfl⟩
        rcases List.mem_append.mp hc' with hc' | hc'
        · rw [hmanifest _ ((h.manifests _ _).mpr ⟨c', hc', hdigest, rfl⟩)]
        · rw [List.mem_singleton.mp hc']
    · next hne =>
      rw [h.manifests]
      constructor
      · rintro ⟨c', hc', hc⟩
        exact ⟨c', List.mem_append_left _ hc', hc⟩
      · rintro ⟨c', hc', hdigest, hm⟩
        rcases List.mem_append.mp hc' with hc' | hc'
        · exact ⟨c', hc', hdigest, hm⟩
        · rw [List.mem_singleton.mp hc'] at hdigest
          exact absurd hdigest.symm hne
  · intro digest b
    change (setItem c.digest c.bindings p.bindings).lookup digest = some b ↔ _
    rw [lookup_setItem]
    split
    · next heq =>
      subst heq
      constructor
      · intro hb
        exact ⟨c, List.mem_concat_self, rfl, Option.some.inj hb⟩
      · rintro ⟨c', hc', hdigest, rfl⟩
        rcases List.mem_append.mp hc' with hc' | hc'
        · rw [hbindings _ ((h.bindings _ _).mpr ⟨c', hc', hdigest, rfl⟩)]
        · rw [List.mem_singleton.mp hc']
    · next hne =>
      rw [h.bindings]
      constructor
      · rintro ⟨c', hc', hc⟩
        exact ⟨c', List.mem_append_left _ hc', hc⟩
      · rintro ⟨c', hc', hdigest, hb⟩
        rcases List.mem_append.mp hc' with hc' | hc'
        · exact ⟨c', hc', hdigest, hb⟩
        · rw [List.mem_singleton.mp hc'] at hdigest
          exact absurd hdigest.symm hne

/-- A manifest passes the checks if none was stored under its digest, or this one with the same
bindings. -/
theorem checkStore_of_remembers (h : Remembers p known)
    (hc : ∀ c' ∈ known, c'.digest = c.digest → c' = c) :
    checkStore p c.manifest c.bindings = .ok () := by
  refine (checkStore_eq_ok p c).mpr ⟨fun m hm ↦ ?_, fun b hb ↦ ?_⟩
  · obtain ⟨c', hc', hdigest, rfl⟩ := (h.manifests _ _).mp hm
    rw [hc c' hc' hdigest]
  · obtain ⟨c', hc', hdigest, rfl⟩ := (h.bindings _ _).mp hb
    rw [hc c' hc' hdigest]

/-- A manifest that is there already is stored again, and nothing is written. -/
theorem call_of_mem (hdisk : Holds p.disk stored) (hc : c ∈ stored) (hmemory : Remembers p known)
    (hknown : ∀ c' ∈ known, c' ∈ stored) :
    (final (c.call p)).disk = p.disk ∧
      (p.left = none → ∃ p', c.call p = .ok () p' ∧ p'.disk = p.disk ∧ p'.left = none ∧
        Remembers p' (known ++ [c])) := by
  have hcheck : checkStore p c.manifest c.bindings = .ok () :=
    checkStore_of_remembers hmemory fun c' hc' ↦ hdisk.distinct c' (hknown c' hc') c hc
  have hrun : c.call p = (persist c.manifest >>= fun _ ↦ do
      if c.bindings ≠ [] then persistBindings c.manifest.manifestDigest c.bindings
      modify (remember c.manifest c.bindings)) p := by
    rw [Compiled.call, store, run_bind_of_ok (run_get_eq_ok.mpr ⟨rfl, rfl⟩),
      run_bind_of_ok (run_lift_eq_ok.mpr ⟨hcheck, rfl⟩)]
  obtain ⟨p₁, hdisk₁, hmanifests₁, hbindings₁, hleft₁, hwrite₁⟩ := writeOnce_of_same
    "context manifest cannot be rewritten"
    ((hdisk.files _ _).mpr ⟨c, hc, .inl ⟨rfl, rfl⟩⟩)
    (fun h ↦ (hdisk.parents _ h).ne_manifestPath _ rfl)
    (fun q hq ↦ hdisk.made c hc q (Compiled.makeDirectory_mem_steps.mpr (.inl hq)))
  have hcheck₁ : checkStore p₁ c.manifest c.bindings = .ok () := by
    rw [checkStore_eq_ok, hmanifests₁, hbindings₁]
    exact (checkStore_eq_ok p c).mp hcheck
  have hmemory₁ : Remembers p₁ known :=
    ⟨fun d m ↦ hmanifests₁ ▸ hmemory.manifests d m, fun d b ↦ hbindings₁ ▸ hmemory.bindings d b⟩
  rw [hrun]
  rcases hwrite₁ with hwrite₁ | ⟨hleft, hwrite₁⟩
  · rw [run_bind_of_ok (show persist c.manifest p = .ok () p₁ from hwrite₁)]
    by_cases hempty : c.bindings = []
    · rw [if_neg (not_not.mpr hempty)]
      refine ⟨hdisk₁, fun hleft ↦ ⟨_, rfl, hdisk₁, hleft₁ hleft, hmemory₁.remember hcheck₁⟩⟩
    · obtain ⟨p₂, hdisk₂, hmanifests₂, hbindings₂, hleft₂, hwrite₂⟩ := writeOnce_of_same
        "context bindings cannot be rewritten"
        (hdisk₁ ▸ (hdisk.files _ _).mpr ⟨c, hc, .inr ⟨hempty, rfl, rfl⟩⟩)
        (hdisk₁ ▸ fun h ↦ (hdisk.parents _ h).ne_bindingPath _ rfl)
        (hdisk₁ ▸ fun q hq ↦ hdisk.made c hc q
          (Compiled.makeDirectory_mem_steps.mpr (.inr ⟨hempty, hq⟩)))
      have hcheck₂ : checkStore p₂ c.manifest c.bindings = .ok () := by
        rw [checkStore_eq_ok, hmanifests₂, hbindings₂]
        exact (checkStore_eq_ok p₁ c).mp hcheck₁
      have hmemory₂ : Remembers p₂ known := ⟨fun d m ↦ hmanifests₂ ▸ hmemory₁.manifests d m,
        fun d b ↦ hbindings₂ ▸ hmemory₁.bindings d b⟩
      rw [if_pos hempty]
      rcases hwrite₂ with hwrite₂ | ⟨hleft, hwrite₂⟩
      · rw [run_bind_of_ok (show persistBindings c.manifest.manifestDigest c.bindings p₁ =
          .ok () p₂ from hwrite₂)]
        exact ⟨hdisk₂.trans hdisk₁, fun hleft ↦ ⟨_, rfl, hdisk₂.trans hdisk₁,
          hleft₂ (hleft₁ hleft), hmemory₂.remember hcheck₂⟩⟩
      · rw [run_bind_of_error (show persistBindings c.manifest.manifestDigest c.bindings p₁ =
          .error .stopped p₂ from hwrite₂)]
        exact ⟨hdisk₂.trans hdisk₁, fun h ↦ absurd (hleft₁ h) hleft⟩
  · rw [run_bind_of_error (show persist c.manifest p = .error .stopped p₁ from hwrite₁)]
    exact ⟨hdisk₁, fun h ↦ absurd h hleft⟩

theorem Holds.read_path (hdisk : Holds p.disk stored)
    (hfresh : ∀ c' ∈ stored, c'.digest ≠ c.digest) : p.disk.read c.path = none := by
  refine Option.eq_none_iff_forall_ne_some.mpr fun bytes h ↦ ?_
  obtain ⟨c', hc', ⟨hpath, -⟩ | ⟨-, hpath, -⟩⟩ := (hdisk.files _ _).mp h
  · exact hfresh c' hc' (Compiled.digest_of_path hpath.symm)
  · exact Compiled.path_ne_receiptPath hpath

theorem Holds.read_receiptPath (hdisk : Holds p.disk stored)
    (hfresh : ∀ c' ∈ stored, c'.digest ≠ c.digest) : p.disk.read c.receiptPath = none := by
  refine Option.eq_none_iff_forall_ne_some.mpr fun bytes h ↦ ?_
  obtain ⟨c', hc', ⟨hpath, -⟩ | ⟨-, hpath, -⟩⟩ := (hdisk.files _ _).mp h
  · exact Compiled.path_ne_receiptPath hpath.symm
  · exact hfresh c' hc' (Compiled.digest_of_receiptPath hpath.symm)

/-- A manifest with a digest of its own is written by its steps. -/
theorem call_of_fresh (hdisk : Holds p.disk stored) (hmemory : Remembers p known)
    (hknown : ∀ c' ∈ known, c' ∈ stored) (hfresh : ∀ c' ∈ stored, c'.digest ≠ c.digest) :
    c.call p =
      (perform c.steps >>= fun _ ↦ modify (remember c.manifest c.bindings)) p := by
  have hcheck : checkStore p c.manifest c.bindings = .ok () :=
    checkStore_of_remembers hmemory fun c' hc' heq ↦ absurd heq (hfresh c' (hknown c' hc'))
  have hpersist : persist c.manifest p = perform c.manifestSteps p :=
    writeOnce_of_absent _ (hdisk.read_path hfresh)
      (fun h ↦ (hdisk.parents _ h).ne_manifestPath _ rfl)
      fun h ↦ (Compiled.isParent_of_mem_steps (c := c)
        (Compiled.makeDirectory_mem_steps.mpr (.inl h))).ne_manifestPath _ rfl
  rw [Compiled.call, store, run_bind_of_ok (run_get_eq_ok.mpr ⟨rfl, rfl⟩),
    run_bind_of_ok (run_lift_eq_ok.mpr ⟨hcheck, rfl⟩), Compiled.steps]
  by_cases hfirst : Suffices c.manifestSteps p
  · have hok := perform_of_suffices hfirst
    rw [run_bind_of_ok (hpersist.trans hok)]
    by_cases hempty : c.bindings = []
    · rw [if_neg (not_not.mpr hempty), Compiled.receiptSteps, if_pos hempty, List.append_nil,
        run_bind_of_ok hok]
    · -- the steps so far went to other places than the receipt
      obtain ⟨taken, htaken, hdisk₁⟩ := exists_performed c.manifestSteps p
      have hread : (performed c.manifestSteps p).disk.read c.receiptPath = none := by
        rw [hdisk₁, Disk.read_foldl_of_ne, hdisk.read_receiptPath hfresh]
        intro step hstep
        rcases List.mem_append.mp (htaken.subset hstep) with hstep | hstep
        · obtain ⟨made, -, rfl⟩ := List.mem_map.mp hstep
          exact .inl ⟨made, rfl⟩
        · right
          rcases List.mem_cons.mp hstep with rfl | hstep
          · exact Compiled.path_ne_receiptPath
          · obtain ⟨byte, -, rfl⟩ := List.mem_map.mp hstep
            exact Compiled.path_ne_receiptPath
      have hdir : c.receiptPath ∉ (performed c.manifestSteps p).disk.directories := by
        rw [hdisk₁, Disk.mem_directories_foldl]
        rintro (hmem | hmem)
        · exact (hdisk.parents _ hmem).ne_bindingPath _ rfl
        · exact (Compiled.isParent_of_mem_steps (c := c)
            (List.mem_append_left _ (htaken.subset hmem))).ne_bindingPath _ rfl
      have hparent : c.receiptPath ∉ c.receiptPath.dropLast.inits :=
        fun h ↦ (Compiled.isParent_of_mem_steps (c := c)
          (Compiled.makeDirectory_mem_steps.mpr (.inr ⟨hempty, h⟩))).ne_bindingPath _ rfl
      have hreceipt : persistBindings c.manifest.manifestDigest c.bindings
          (performed c.manifestSteps p) = perform c.receiptSteps (performed c.manifestSteps p) := by
        rw [Compiled.receiptSteps, if_neg hempty]
        exact writeOnce_of_absent _ hread hdir hparent
      have hall : perform (c.manifestSteps ++ c.receiptSteps) p =
          perform c.receiptSteps (performed c.manifestSteps p) := by
        rw [perform_append, run_bind_of_ok hok]
      rw [if_pos hempty]
      cases hrest : perform c.receiptSteps (performed c.manifestSteps p) with
      | ok u q =>
        rw [run_bind_of_ok (hreceipt.trans hrest), run_bind_of_ok (hall.trans hrest)]
      | error e q =>
        rw [run_bind_of_error (hreceipt.trans hrest), run_bind_of_error (hall.trans hrest)]
  · have herror := perform_of_not_suffices hfirst
    have hall : perform (c.manifestSteps ++ c.receiptSteps) p =
        .error .stopped (performed c.manifestSteps p) := by
      rw [perform_append, run_bind_of_error herror]
    rw [run_bind_of_error (hpersist.trans herror), run_bind_of_error hall]

/-- A manifest is refused if its digest is bound to another one, or to other bindings. -/
theorem call_of_conflict (hmemory : Remembers p known) (hc' : c' ∈ known)
    (hdigest : c'.digest = c.digest) (hne : c' ≠ c) : ∃ e, c.call p = .error e p := by
  have hcheck : checkStore p c.manifest c.bindings ≠ .ok () := by
    intro h
    obtain ⟨hmanifest, hbindings⟩ := (checkStore_eq_ok p c).mp h
    exact hne (Compiled.ext_iff
      (hmanifest _ ((hmemory.manifests _ _).mpr ⟨c', hc', hdigest, rfl⟩))
      (hbindings _ ((hmemory.bindings _ _).mpr ⟨c', hc', hdigest, rfl⟩)))
  cases herror : checkStore p c.manifest c.bindings with
  | ok u => exact absurd herror hcheck
  | error e =>
    have hlift : (lift (checkStore p c.manifest c.bindings) : StoreAction Unit) p =
        .error e p := by
      simp only [lift, herror]
    refine ⟨e, ?_⟩
    rw [Compiled.call, store, run_bind_of_ok (run_get_eq_ok.mpr ⟨rfl, rfl⟩),
      run_bind_of_error hlift]

/-! ### The files after a call -/

theorem read_manifestSteps (c : Compiled) (disk : Disk) (q : Location) :
    (c.manifestSteps.foldl Disk.apply disk).read q =
      if q = c.path then some c.bytes else disk.read q := by
  rw [Compiled.manifestSteps, List.foldl_append]
  split
  · next h =>
    subst h
    exact Disk.read_foldl_writing _ _ _
  · next h => rw [Disk.read_foldl_writing_of_ne h, Disk.read_foldl_directoriesOf]

theorem read_receiptSteps (hempty : c.bindings ≠ []) (disk : Disk) (q : Location) :
    (c.receiptSteps.foldl Disk.apply disk).read q =
      if q = c.receiptPath then some c.receiptBytes else disk.read q := by
  rw [Compiled.receiptSteps, if_neg hempty, List.foldl_append]
  split
  · next h =>
    subst h
    exact Disk.read_foldl_writing _ _ _
  · next h => rw [Disk.read_foldl_writing_of_ne h, Disk.read_foldl_directoriesOf]

private theorem read_steps (c : Compiled) (disk : Disk) (q : Location) (bytes : List UInt8) :
    (c.steps.foldl Disk.apply disk).read q = some bytes ↔
      c.Writes q bytes ∨ (q ≠ c.path ∧ (c.bindings ≠ [] → q ≠ c.receiptPath)) ∧
        disk.read q = some bytes := by
  have hpath : c.path ≠ c.receiptPath := Compiled.path_ne_receiptPath
  rw [Compiled.steps, List.foldl_append, Compiled.Writes]
  by_cases hempty : c.bindings = []
  · rw [Compiled.receiptSteps, if_pos hempty, List.foldl_nil, read_manifestSteps]
    split
    · next h => simp [h, hempty, eq_comm]
    · next h => simp [h, hempty]
  · rw [read_receiptSteps hempty, read_manifestSteps]
    split
    · next h => simp [h, hempty, hpath.symm, eq_comm]
    · next h =>
      split
      · next h' => simp [h', hpath, eq_comm]
      · next h' => simp [h, h', hempty]

/-- All steps of a manifest with a digest of its own add it to what is held. -/
theorem Holds.steps {disk : Disk} (hdisk : Holds disk stored)
    (hfresh : ∀ c' ∈ stored, c'.digest ≠ c.digest) :
    Holds (c.steps.foldl Disk.apply disk) (stored ++ [c]) := by
  constructor
  · intro path bytes
    rw [read_steps, hdisk.files]
    constructor
    · rintro (h | ⟨-, c', hc', h⟩)
      · exact ⟨c, List.mem_concat_self, h⟩
      · exact ⟨c', List.mem_append_left _ hc', h⟩
    · rintro ⟨c', hc', h⟩
      rcases List.mem_append.mp hc' with hc' | hc'
      · -- the files of the others are not those of this one
        refine .inr ⟨⟨?_, fun _ ↦ ?_⟩, c', hc', h⟩
        · rintro rfl
          obtain ⟨hpath, -⟩ | ⟨-, hpath, -⟩ := h
          · exact hfresh c' hc' (Compiled.digest_of_path hpath.symm)
          · exact Compiled.path_ne_receiptPath hpath
        · rintro rfl
          obtain ⟨hpath, -⟩ | ⟨-, hpath, -⟩ := h
          · exact Compiled.path_ne_receiptPath hpath.symm
          · exact hfresh c' hc' (Compiled.digest_of_receiptPath hpath.symm)
      · rw [List.mem_singleton.mp hc'] at h
        exact .inl h
  · intro c' hc' q hq
    rw [Disk.mem_directories_foldl]
    rcases List.mem_append.mp hc' with hc' | hc'
    · exact .inl (hdisk.made c' hc' q hq)
    · rw [List.mem_singleton.mp hc'] at hq
      exact .inr hq
  · intro q hq
    rcases Disk.mem_directories_foldl.mp hq with hq | hq
    · exact hdisk.parents q hq
    · exact Compiled.isParent_of_mem_steps hq
  · intro q hq hjson
    rcases Disk.mem_directories_foldl.mp hq with hq | hq
    · obtain ⟨c', hc', h⟩ := hdisk.named q hq hjson
      exact ⟨c', List.mem_append_left _ hc', h⟩
    · exact ⟨c, List.mem_concat_self, hq⟩
  · intro c₁ hc₁ c₂ hc₂ hdigest
    rcases List.mem_append.mp hc₁ with hc₁ | hc₁ <;> rcases List.mem_append.mp hc₂ with hc₂ | hc₂
    · exact hdisk.distinct c₁ hc₁ c₂ hc₂ hdigest
    · rw [List.mem_singleton.mp hc₂] at hdigest
      exact absurd hdigest (hfresh c₁ hc₁)
    · rw [List.mem_singleton.mp hc₁] at hdigest
      exact absurd hdigest.symm (hfresh c₂ hc₂)
    · rw [List.mem_singleton.mp hc₁, List.mem_singleton.mp hc₂]

/-- Steps that only make directories, none with the name of a file, add nothing. -/
theorem Holds.quiet {disk : Disk} (hdisk : Holds disk stored) {taken : List FsStep}
    (htaken : ∀ step ∈ taken, ∃ q, step = .makeDirectory q ∧ IsParent q ∧ isJsonPath q = false) :
    Holds (taken.foldl Disk.apply disk) stored := by
  have hread : ∀ q, (taken.foldl Disk.apply disk).read q = disk.read q := by
    refine fun q ↦ Disk.read_foldl_of_ne fun step hstep ↦ .inl ?_
    obtain ⟨made, rfl, -⟩ := htaken step hstep
    exact ⟨made, rfl⟩
  constructor
  · intro path bytes
    rw [hread, hdisk.files]
  · intro c hc q hq
    exact Disk.mem_directories_foldl.mpr (.inl (hdisk.made c hc q hq))
  · intro q hq
    rcases Disk.mem_directories_foldl.mp hq with hq | hq
    · exact hdisk.parents q hq
    · obtain ⟨made, heq, hparent, -⟩ := htaken _ hq
      rw [FsStep.makeDirectory.injEq] at heq
      exact heq ▸ hparent
  · intro q hq hjson
    rcases Disk.mem_directories_foldl.mp hq with hq | hq
    · exact hdisk.named q hq hjson
    · obtain ⟨made, heq, -, hmade⟩ := htaken _ hq
      rw [FsStep.makeDirectory.injEq] at heq
      rw [heq, hmade] at hjson
      exact nomatch hjson
  · exact hdisk.distinct

-- the list of steps is long, and no check by evaluation should unfold it
attribute [irreducible] Compiled.steps

/-- The process in which all steps of a call were taken. -/
def written (c : Compiled) (p : StoreProcess) : StoreProcess :=
  { p with disk := c.steps.foldl Disk.apply p.disk }

theorem disk_written (c : Compiled) (p : StoreProcess) :
    (written c p).disk = c.steps.foldl Disk.apply p.disk := rfl

theorem perform_steps (c : Compiled) (hleft : p.left = none) :
    perform c.steps p = .ok () (written c p) := by
  rw [perform_of_suffices (suffices_of_none hleft), performed_of_none hleft, written]

theorem call_of_fresh_of_none (hleft : p.left = none) (hdisk : Holds p.disk stored)
    (hmemory : Remembers p stored) (hfresh : ∀ c' ∈ stored, c'.digest ≠ c.digest) :
    ∃ p', c.call p = .ok () p' ∧ p'.left = none ∧ Holds p'.disk (stored ++ [c]) ∧
      Remembers p' (stored ++ [c]) := by
  have hmemory' : Remembers (written c p) stored := ⟨hmemory.manifests, hmemory.bindings⟩
  have hcheck := checkStore_of_remembers hmemory' fun c' hc' h ↦ absurd h (hfresh c' hc')
  have hdisk' : Holds (c.steps.foldl Disk.apply p.disk) (stored ++ [c]) := hdisk.steps hfresh
  rw [← disk_written] at hdisk'
  refine ⟨remember c.manifest c.bindings (written c p), ?_, hleft, hdisk',
    hmemory'.remember hcheck⟩
  rw [call_of_fresh hdisk hmemory (fun _ h ↦ h) hfresh, run_bind_of_ok (perform_steps c hleft)]
  rfl

/-- A call that is not stopped is refused and leaves everything as it is, or returns and adds its
manifest. -/
theorem call_cases (hleft : p.left = none) (hdisk : Holds p.disk stored)
    (hmemory : Remembers p stored) (c : Compiled) :
    (∃ c' ∈ stored, c'.digest = c.digest ∧ c' ≠ c ∧ ∃ e, c.call p = .error e p) ∨
      ((∀ c' ∈ stored, c'.digest = c.digest → c' = c) ∧
        ∃ p', c.call p = .ok () p' ∧ p'.left = none ∧ Holds p'.disk (stored ++ [c]) ∧
          Remembers p' (stored ++ [c])) := by
  by_cases hconflict : ∃ c' ∈ stored, c'.digest = c.digest ∧ c' ≠ c
  · obtain ⟨c', hc', hdigest, hne⟩ := hconflict
    exact .inl ⟨c', hc', hdigest, hne, call_of_conflict hmemory hc' hdigest hne⟩
  right
  have hsame : ∀ c' ∈ stored, c'.digest = c.digest → c' = c := by
    intro c' hc' hdigest
    by_contra hne
    exact hconflict ⟨c', hc', hdigest, hne⟩
  refine ⟨hsame, ?_⟩
  by_cases hmem : c ∈ stored
  · obtain ⟨-, hrun⟩ := call_of_mem hdisk hmem hmemory fun _ h ↦ h
    obtain ⟨p', hok, hdisk', hleft', hmemory'⟩ := hrun hleft
    refine ⟨p', hok, hleft', ?_, hmemory'⟩
    rw [hdisk']
    -- the manifest is in the list a second time
    have hiff : ∀ c', c' ∈ stored ++ [c] ↔ c' ∈ stored := by
      intro c'
      rw [List.mem_append, List.mem_singleton, or_iff_left_iff_imp]
      rintro rfl
      exact hmem
    exact ⟨by simpa only [hiff] using hdisk.files, by simpa only [hiff] using hdisk.made,
      hdisk.parents, by simpa only [hiff] using hdisk.named,
      by simpa only [hiff] using hdisk.distinct⟩
  · exact call_of_fresh_of_none hleft hdisk hmemory
      fun c' hc' h ↦ hmem (hsame c' hc' h ▸ hc')

/-- **What is held and what is remembered after a session are the manifests whose calls returned.** -/
theorem holds_session (calls : List Compiled) :
    (session calls).1.left = none ∧ Holds (session calls).1.disk (session calls).2 ∧
      Remembers (session calls).1 (session calls).2 := by
  refine List.foldlRecOn calls after (motive := fun run ↦ run.1.left = none ∧
    Holds run.1.disk run.2 ∧ Remembers run.1 run.2) ?_ ?_
  · refine ⟨rfl, ⟨?_, by rintro _ ⟨⟩, by rintro _ ⟨⟩, by rintro _ ⟨⟩, by rintro _ ⟨⟩⟩, ⟨?_, ?_⟩⟩
    all_goals
      intro _ _
      constructor
      · intro h
        cases h
      · rintro ⟨_, h, -⟩
        cases h
  · rintro ⟨p, stored⟩ ⟨hleft, hdisk, hmemory⟩ c -
    rw [after]
    rcases call_cases hleft hdisk hmemory c with ⟨_, _, _, _, e, hcall⟩ | ⟨-, p', hcall, h⟩
    · simp only [hcall]
      exact ⟨hleft, hdisk, hmemory⟩
    · simp only [hcall]
      exact h

/-! ## Reading what is held -/

private theorem sorted_receiptDocument (digest : String) (bindings : List ContextRecordBinding) :
    (receiptDocument digest bindings).Sorted := by
  refine ⟨?_, ?_, trivial, trivial⟩
  · change ["bindings", "manifest_digest"].Pairwise (· < ·)
    decide
  · refine Json.sortedList_iff.mpr fun x hx ↦ ?_
    obtain ⟨b, -, rfl⟩ := List.mem_map.mp hx
    exact b.sorted_document

theorem loadDocument_bytes (c : Compiled) :
    loadDocument c.bytes = .ok (.obj c.manifest.document) := by
  rw [loadDocument, Compiled.bytes, ContextManifest.encoded,
    loads_readText_dumps c.manifest.sorted_document]

theorem loadDocument_receiptBytes (c : Compiled) :
    loadDocument c.receiptBytes = .ok (receiptDocument c.digest c.bindings) := by
  rw [loadDocument, Compiled.receiptBytes, loads_readText_dumps (sorted_receiptDocument _ _)]

omit [Hash256] in
private theorem loadDocument_of_prefix {ms : List (String × Json)} (h : (Json.obj ms).Sorted)
    (hbytes : bytes <+: encodeText (Json.obj ms).dumps)
    (hne : bytes ≠ encodeText (Json.obj ms).dumps) (document : Json) :
    loadDocument bytes ≠ .ok document := by
  rw [loadDocument, loads_readText_dumps_of_prefix h hbytes hne]
  exact nofun

/-- A file that holds part of a manifest is not read. -/
theorem loadDocument_of_prefix_bytes (hbytes : bytes <+: c.bytes) (hne : bytes ≠ c.bytes)
    (document : Json) : loadDocument bytes ≠ .ok document :=
  loadDocument_of_prefix c.manifest.sorted_document hbytes hne document

theorem loadDocument_of_prefix_receiptBytes (hbytes : bytes <+: c.receiptBytes)
    (hne : bytes ≠ c.receiptBytes) (document : Json) : loadDocument bytes ≠ .ok document :=
  loadDocument_of_prefix (sorted_receiptDocument c.digest c.bindings) hbytes hne document

private theorem receiptBindings_receiptDocument (c : Compiled) :
    receiptBindings c.manifest (receiptDocument c.digest c.bindings) = .ok c.bindings := by
  have hobjects : (c.bindings.map fun b ↦ Json.obj b.document).mapM Json.asObj? =
      some (c.bindings.map ContextRecordBinding.document) := by
    rw [List.mapM_map]
    generalize c.bindings = bindings
    induction bindings with
    | nil => rfl
    | cons b bindings ih =>
      rw [List.mapM_cons, ih]
      rfl
  have hread : (c.bindings.map ContextRecordBinding.document).mapM
      ContextRecordBinding.fromDocument = .ok c.bindings := by
    refine mapM_eq_ok.mpr (List.forall₂_map_left_iff.mpr (List.forall₂_same.mpr fun b _ ↦ ?_))
    exact b.fromDocument_document
  rw [receiptDocument, receiptBindings]
  simp only [Compiled.digest, ne_eq, not_true_eq_false, if_false, hobjects, hread]

theorem restoreBindings_of_holds {disk : Disk} (hdisk : Holds disk stored) (hc : c ∈ stored) :
    restoreBindings disk c.manifest = .ok c.bindings := by
  rw [restoreBindings]
  by_cases hempty : c.bindings = []
  · have hnone : disk.read (bindingPath c.manifest.manifestDigest) = none := by
      refine Option.eq_none_iff_forall_ne_some.mpr fun bytes h ↦ ?_
      obtain ⟨c', hc', ⟨hpath, -⟩ | ⟨hempty', hpath, -⟩⟩ := (hdisk.files _ _).mp h
      · exact Compiled.path_ne_receiptPath hpath.symm
      · rw [hdisk.distinct c' hc' c hc (Compiled.digest_of_receiptPath hpath.symm)] at hempty'
        exact hempty' hempty
    have hrecords : c.manifest.records = [] := by
      rw [← c.covers, hempty]
      rfl
    simp only [hnone, hrecords, hempty, ne_eq, not_true_eq_false, if_false]
  · have hsome : disk.read (bindingPath c.manifest.manifestDigest) = some c.receiptBytes :=
      (hdisk.files _ _).mpr ⟨c, hc, .inr ⟨hempty, rfl, rfl⟩⟩
    simp only [hsome, loadDocument_receiptBytes, ok_bind, receiptBindings_receiptDocument]

theorem readManifest_of_holds {disk : Disk} (hdisk : Holds disk stored) (hc : c ∈ stored)
    (hconvertible : c.manifest.Convertible) :
    readManifest disk c.path = .ok (c.manifest, c.bindings) := by
  have hsome : disk.read c.path = some c.bytes := (hdisk.files _ _).mpr ⟨c, hc, .inl ⟨rfl, rfl⟩⟩
  rw [readManifest]
  simp only [hsome, loadDocument_bytes, ok_bind,
    ContextManifest.fromDocument_document hconvertible, restoreBindings_of_holds hdisk hc]
  rfl

/-! ## Restoring what is held -/

theorem restoreFile_of_holds (hleft : p.left = none) (hdisk : Holds p.disk stored)
    (hc : c ∈ stored) (hconvertible : c.manifest.Convertible) (hmemory : Remembers p known)
    (hknown : ∀ c' ∈ known, c' ∈ stored) :
    ∃ p', restoreFile c.path p = .ok () p' ∧ p'.disk = p.disk ∧ p'.left = none ∧
      Remembers p' (known ++ [c]) := by
  obtain ⟨p', hcall, h⟩ := (call_of_mem hdisk hc hmemory hknown).2 hleft
  refine ⟨p', ?_, h⟩
  rw [restoreFile, run_bind_of_ok (run_get_eq_ok.mpr ⟨rfl, rfl⟩)]
  simp only [readManifest_of_holds hdisk hc hconvertible]
  exact hcall

theorem restoreFiles_of_holds (hconvertible : ∀ c ∈ stored, c.manifest.Convertible)
    {paths : List Location} (hpaths : ∀ path ∈ paths, ∃ c ∈ stored, path = c.path) :
    ∀ {p : StoreProcess} {known : List Compiled}, p.left = none → Holds p.disk stored →
      Remembers p known → (∀ c' ∈ known, c' ∈ stored) →
      ∃ p' known', restoreFiles paths p = .ok () p' ∧ p'.disk = p.disk ∧ p'.left = none ∧
        Remembers p' known' ∧ (∀ c' ∈ known', c' ∈ stored) ∧ (∀ c' ∈ known, c' ∈ known') ∧
        ∀ path ∈ paths, ∃ c ∈ known', path = c.path := by
  induction paths with
  | nil =>
    intro p known hleft _ hmemory hknown
    exact ⟨p, known, rfl, rfl, hleft, hmemory, hknown, fun _ h ↦ h, nofun⟩
  | cons path paths ih =>
    intro p known hleft hdisk hmemory hknown
    obtain ⟨c, hc, rfl⟩ := hpaths path List.mem_cons_self
    obtain ⟨p₁, hrun₁, hdisk₁, hleft₁, hmemory₁⟩ :=
      restoreFile_of_holds hleft hdisk hc (hconvertible c hc) hmemory hknown
    have hknown₁ : ∀ c' ∈ known ++ [c], c' ∈ stored := by
      intro c' hc'
      rcases List.mem_append.mp hc' with hc' | hc'
      · exact hknown c' hc'
      · rw [List.mem_singleton.mp hc']
        exact hc
    obtain ⟨p₂, known₂, hrun₂, hdisk₂, hleft₂, hmemory₂, hknown₂, hgrows, hall⟩ :=
      ih (fun q hq ↦ hpaths q (List.mem_cons_of_mem _ hq)) hleft₁ (hdisk₁ ▸ hdisk) hmemory₁ hknown₁
    refine ⟨p₂, known₂, ?_, hdisk₂.trans hdisk₁, hleft₂, hmemory₂, hknown₂,
      fun c' hc' ↦ hgrows c' (List.mem_append_left _ hc'), fun q hq ↦ ?_⟩
    · rw [restoreFiles, run_bind_of_ok hrun₁, hrun₂]
    · rcases List.mem_cons.mp hq with rfl | hq
      · exact ⟨c, hgrows c List.mem_concat_self, rfl⟩
      · exact hall q hq

omit [Hash256] in
/-- The paths that a restore visits. -/
theorem mem_manifestFiles {disk : Disk} {q : Location} :
    q ∈ manifestFiles disk ↔ (q ∈ disk.directories ∨ (disk.read q).isSome) ∧
      q.head? = some "context" ∧ q.tail ≠ [] ∧ isJsonPath q = true ∧ "bindings" ∉ q.tail := by
  have hread : (disk.read q).isSome ↔ q ∈ disk.files.map Prod.fst := by
    constructor
    · intro h
      obtain ⟨bytes, hbytes⟩ := Option.isSome_iff_exists.mp h
      exact List.mem_map.mpr ⟨(q, bytes), mem_of_lookup hbytes, rfl⟩
    · intro h
      obtain ⟨file, hfile, rfl⟩ := List.mem_map.mp h
      by_contra hnone
      have hlookup : @List.lookup _ _ instBEqOfDecidableEq file.1 disk.files = none :=
        Option.not_isSome_iff_eq_none.mp hnone
      have := (@List.lookup_eq_none_iff _ instBEqOfDecidableEq _ _ _).mp hlookup file hfile
      simp at this
  rw [manifestFiles, List.mem_mergeSort, List.mem_filter, List.mem_append, hread]
  simp only [decide_eq_true_eq]

theorem path_mem_manifestFiles {disk : Disk} (h : (disk.read c.path).isSome) :
    c.path ∈ manifestFiles disk :=
  mem_manifestFiles.mpr ⟨.inr h, rfl, nofun, isJsonPath_manifestPath _,
    bindings_notMem_manifestPath _⟩

/-- **A store is restored from what is held, if every manifest is readable.** -/
theorem restore_of_holds {disk : Disk} (hdisk : Holds disk stored)
    (hreadable : ∀ c ∈ stored, c.Readable) :
    ∃ restored p, restore (openStore disk) = .ok restored p ∧ p.disk = disk ∧ p.left = none ∧
      Remembers p stored ∧ ∀ c ∈ stored, c.manifest ∈ restored := by
  have hempty : Remembers (openStore disk) [] := by
    constructor
    all_goals
      intro _ _
      constructor
      · intro h
        exact nomatch h
      · rintro ⟨_, h, -⟩
        exact nomatch h
  by_cases hcontext : ["context"] ∈ disk.directories
  · have hpaths : ∀ path ∈ manifestFiles disk, ∃ c ∈ stored, path = c.path := by
      intro path hpath
      obtain ⟨hplace, -, -, hjson, hbindings⟩ := mem_manifestFiles.mp hpath
      rcases hplace with hplace | hplace
      · obtain ⟨c, hc, hstep⟩ := hdisk.named path hplace hjson
        rw [(hreadable c hc).isJsonPath_eq_false hstep] at hjson
        exact nomatch hjson
      · obtain ⟨bytes, hbytes⟩ := Option.isSome_iff_exists.mp hplace
        obtain ⟨c, hc, ⟨rfl, -⟩ | ⟨-, rfl, -⟩⟩ := (hdisk.files _ _).mp hbytes
        · exact ⟨c, hc, rfl⟩
        · exact absurd (List.mem_cons_self (a := "bindings")) hbindings
    obtain ⟨p, known, hrun, hdisk', hleft, hmemory, hknown, -, hall⟩ :=
      restoreFiles_of_holds (fun c hc ↦ (hreadable c hc).1) hpaths (p := openStore disk) rfl hdisk
        hempty nofun
    have hstored : ∀ c, c ∈ known ↔ c ∈ stored := by
      refine fun c ↦ ⟨hknown c, fun hc ↦ ?_⟩
      have hsome : (disk.read c.path).isSome :=
        Option.isSome_iff_exists.mpr ⟨_, (hdisk.files _ _).mpr ⟨c, hc, .inl ⟨rfl, rfl⟩⟩⟩
      obtain ⟨c', hc', hpath⟩ := hall _ (path_mem_manifestFiles hsome)
      rw [hdisk.distinct c hc c' (hknown c' hc') (Compiled.digest_of_path hpath)]
      exact hc'
    have hmemory' : Remembers p stored := ⟨fun d m ↦ by rw [hmemory.manifests]; simp only [hstored],
      fun d b ↦ by rw [hmemory.bindings]; simp only [hstored]⟩
    refine ⟨manifests p, p, ?_, hdisk', hleft, hmemory', fun c hc ↦ ?_⟩
    · have hvisits : ¬["context"] ∉ (openStore disk).disk.directories := not_not.mpr hcontext
      have hrun' : restoreFiles (manifestFiles (openStore disk).disk) (openStore disk) =
        .ok () p := hrun
      rw [restore, run_bind_of_ok (run_get_eq_ok.mpr ⟨rfl, rfl⟩), if_neg hvisits]
      exact run_bind_of_ok hrun'
    · have hlookup := (hmemory'.manifests _ _).mpr ⟨c, hc, rfl, rfl⟩
      exact List.mem_map.mpr ⟨_, (List.mem_mergeSort).mpr (mem_of_lookup hlookup), rfl⟩
  · have hnone : ∀ c, c ∉ stored := by
      intro c hc
      refine hcontext (hdisk.made c hc _ (Compiled.makeDirectory_mem_steps.mpr (.inl ?_)))
      rw [Compiled.path, inits_manifestPath]
      exact List.mem_cons_of_mem _ List.mem_cons_self
    have hstored : stored = [] := List.eq_nil_iff_forall_not_mem.mpr hnone
    subst hstored
    have hskips : ["context"] ∉ (openStore disk).disk.directories := hcontext
    refine ⟨[], openStore disk, ?_, rfl, rfl, hempty, nofun⟩
    rw [restore, run_bind_of_ok (run_get_eq_ok.mpr ⟨rfl, rfl⟩), if_pos hskips]
    rfl

end Calls

end Store

end HiveMind.Context
