import HiveMind.Kernel.ContextStore

/-!
# Restoring the context store after a crash

A store that is stopped in the middle of a call leaves a file of the call unfinished, or a manifest
without its receipt. No later step removes such a file, and the next `restore` meets it: it visits
every path that ends in `.json`, and is refused if one of them is refused.

* **`survives_iff`**: a store that was stopped in the middle of a call can be restored, with every
  manifest whose call returned, and takes the interrupted call again, if and only if nothing whose
  name ends in `.json` was made yet or all files of the call were complete, and every manifest is
  readable and has the bindings that it had before.
-/

open Raise Dicts

namespace HiveMind.Context

variable [Hash256]

/-! ## What a restore leaves in place -/

/-- Directories stay, and a file is only added where there is neither a directory nor a receipt. -/
structure Grows (disk disk' : Disk) : Prop where
  directories : ∀ q ∈ disk.directories, q ∈ disk'.directories
  files : ∀ q, disk'.read q = disk.read q ∨
    disk.read q = none ∧ q ∉ disk.directories ∧ ∀ digest, q ≠ bindingPath digest

namespace Grows

variable {disk disk' disk'' : Disk} {q : Location} {bytes : List UInt8}

omit [Hash256] in
theorem refl (disk : Disk) : Grows disk disk := ⟨fun _ h ↦ h, fun _ ↦ .inl rfl⟩

omit [Hash256] in
theorem trans (h : Grows disk disk') (h' : Grows disk' disk'') : Grows disk disk'' := by
  refine ⟨fun q hq ↦ h'.directories q (h.directories q hq), fun q ↦ ?_⟩
  rcases h'.files q with hsame' | ⟨hnone', hdir', hreceipt⟩
  · rw [hsame']
    exact h.files q
  · right
    refine ⟨?_, fun hq ↦ hdir' (h.directories q hq), hreceipt⟩
    rcases h.files q with hsame | ⟨hnone, -⟩
    · rw [← hsame]
      exact hnone'
    · exact hnone

omit [Hash256] in
theorem read_of_some (h : Grows disk disk') (hread : disk.read q = some bytes) :
    disk'.read q = some bytes := by
  rcases h.files q with hsame | ⟨hnone, -⟩
  · rw [hsame, hread]
  · rw [hread] at hnone
    exact nomatch hnone

omit [Hash256] in
theorem read_of_mem (h : Grows disk disk') (hdir : q ∈ disk.directories)
    (hread : disk.read q = none) : disk'.read q = none := by
  rcases h.files q with hsame | ⟨-, hnotMem, -⟩
  · rw [hsame, hread]
  · exact absurd hdir hnotMem

omit [Hash256] in
theorem read_bindingPath (h : Grows disk disk') {digest : String}
    (hread : disk.read (bindingPath digest) = none) : disk'.read (bindingPath digest) = none := by
  rcases h.files (bindingPath digest) with hsame | ⟨-, -, hne⟩
  · rw [hsame, hread]
  · exact absurd rfl (hne digest)

end Grows

section Restoring

variable {p p' : StoreProcess} {path q : Location} {bytes : List UInt8}

omit [Hash256] in
private theorem grows_directoriesOf (path : Location) (disk : Disk) :
    Grows disk ((directoriesOf path).foldl Disk.apply disk) :=
  ⟨fun _ hq ↦ Disk.mem_directories_foldl.mpr (.inl hq), fun _ ↦ .inl Disk.read_foldl_directoriesOf⟩

omit [Hash256] in
private theorem directories_writing (path : Location) (bytes : List UInt8) (disk : Disk) :
    ((writing path bytes).foldl Disk.apply disk).directories = disk.directories := by
  have hbytes : ∀ disk : Disk,
      ((bytes.map (FsStep.writeByte path)).foldl Disk.apply disk).directories =
        disk.directories := by
    induction bytes with
    | nil => exact fun _ ↦ rfl
    | cons byte bytes ih => exact fun disk ↦ ih _
  exact hbytes _

private theorem eq_of_perform {steps : List FsStep} (hrun : perform steps p = .ok () p')
    (hleft : p.left = none) :
    p' = { p with disk := steps.foldl Disk.apply p.disk } := by
  rw [perform_of_suffices (suffices_of_none hleft), performed_of_none hleft] at hrun
  cases hrun
  rfl

/-- A file that is written is there already, or is put where there was none. -/
theorem grows_of_writeOnce (refusal : String) (hleft : p.left = none)
    (hrun : writeOnce path bytes refusal p = .ok () p')
    (hplace : p.disk.read path ≠ none ∨ ∀ digest, path ≠ bindingPath digest) :
    p'.left = none ∧ Grows p.disk p'.disk := by
  have hgrows := grows_directoriesOf path p.disk
  rw [writeOnce, run_bind_of_ok (perform_of_suffices (suffices_of_none hleft)),
    performed_of_none hleft, run_bind_of_ok (run_get_eq_ok.mpr ⟨rfl, rfl⟩)] at hrun
  split at hrun
  · cases hrun
  · next hdir =>
    have hread : ((directoriesOf path).foldl Disk.apply p.disk).read path = p.disk.read path :=
      Disk.read_foldl_directoriesOf
    simp only [hread] at hrun
    cases hexisting : p.disk.read path with
    | none =>
      -- the file is created in a directory that was made before
      simp only [hexisting] at hrun
      obtain rfl := eq_of_perform hrun hleft
      refine ⟨hleft, ⟨fun q hq ↦ ?_, fun q ↦ ?_⟩⟩
      · rw [directories_writing]
        exact hgrows.directories q hq
      · by_cases hq : q = path
        · subst hq
          refine .inr ⟨hexisting, fun hmem ↦ hdir (hgrows.directories q hmem), ?_⟩
          exact hplace.resolve_left (not_not.mpr hexisting)
        · rw [Disk.read_foldl_writing_of_ne hq]
          exact hgrows.files q
    | some existing =>
      simp only [hexisting] at hrun
      split at hrun
      · cases hrun
      · cases hrun
        exact ⟨hleft, hgrows⟩

/-- The bindings of a manifest are read from a receipt, if there are some. -/
theorem read_of_restoreBindings {disk : Disk} {m : ContextManifest}
    {bindings : List ContextRecordBinding} (h : restoreBindings disk m = .ok bindings)
    (hne : bindings ≠ []) : disk.read (bindingPath m.manifestDigest) ≠ none := by
  intro hnone
  rw [restoreBindings] at h
  simp only [hnone] at h
  split at h
  · cases h
  · exact hne (Except.ok.inj h).symm

theorem restoreFile_eq_ok (hleft : p.left = none) (hrun : restoreFile path p = .ok () p') :
    (∃ result, readManifest p.disk path = .ok result) ∧ p'.left = none ∧
      Grows p.disk p'.disk := by
  rw [restoreFile, run_bind_of_ok (run_get_eq_ok.mpr ⟨rfl, rfl⟩)] at hrun
  cases hread : readManifest p.disk path with
  | error e =>
    simp only [hread] at hrun
    cases e with
    | overflowError => cases hrun
    | _ => cases hrun
  | ok result =>
    obtain ⟨m, bindings⟩ := result
    simp only [hread] at hrun
    refine ⟨⟨_, rfl⟩, ?_⟩
    -- the bindings come from a receipt that is there already
    have hreceipt : bindings ≠ [] → p.disk.read (bindingPath m.manifestDigest) ≠ none := by
      rw [readManifest] at hread
      split at hread
      · cases hread
      · obtain ⟨_, -, hread⟩ := bind_eq_ok.mp hread
        obtain ⟨_, -, hread⟩ := bind_eq_ok.mp hread
        obtain ⟨_, hbindings, hread⟩ := bind_eq_ok.mp hread
        cases hread
        exact read_of_restoreBindings hbindings
    obtain ⟨p₀, _, hget, hrun⟩ := run_bind_eq_ok.mp hrun
    obtain ⟨rfl, rfl⟩ := run_get_eq_ok.mp hget
    obtain ⟨_, _, hcheck, hrun⟩ := run_bind_eq_ok.mp hrun
    obtain ⟨-, rfl⟩ := run_lift_eq_ok.mp hcheck
    obtain ⟨_, p₁, hpersist, hrun⟩ := run_bind_eq_ok.mp hrun
    obtain ⟨hleft₁, hgrows₁⟩ := grows_of_writeOnce _ hleft hpersist
      (.inr (manifestPath_ne_bindingPath m))
    by_cases hempty : bindings = []
    · rw [if_neg (not_not.mpr hempty)] at hrun
      cases hrun
      exact ⟨hleft₁, hgrows₁⟩
    · rw [if_pos hempty] at hrun
      obtain ⟨_, p₂, hbindings, hrun⟩ := run_bind_eq_ok.mp hrun
      obtain ⟨bytes, hbytes⟩ := Option.ne_none_iff_exists'.mp (hreceipt hempty)
      have hthere : p₁.disk.read (bindingPath m.manifestDigest) ≠ none := by
        rw [hgrows₁.read_of_some hbytes]
        rintro ⟨⟩
      obtain ⟨hleft₂, hgrows₂⟩ := grows_of_writeOnce _ hleft₁ hbindings (.inl hthere)
      cases hrun
      exact ⟨hleft₂, hgrows₁.trans hgrows₂⟩

/-- Every path of a restore is read, with no less in place than at its start. -/
theorem restoreFiles_eq_ok {paths : List Location} (hleft : p.left = none)
    (hrun : restoreFiles paths p = .ok () p') (hpath : path ∈ paths) :
    ∃ disk', Grows p.disk disk' ∧ ∃ result, readManifest disk' path = .ok result := by
  induction paths generalizing p with
  | nil => exact nomatch hpath
  | cons first paths ih =>
    obtain ⟨_, p₁, hfirst, hrest⟩ := run_bind_eq_ok.mp hrun
    obtain ⟨hresult, hleft₁, hgrows₁⟩ := restoreFile_eq_ok hleft hfirst
    rcases List.mem_cons.mp hpath with rfl | hpath
    · exact ⟨p.disk, Grows.refl _, hresult⟩
    · obtain ⟨disk', hgrows, hresult⟩ := ih hleft₁ hrest hpath
      exact ⟨disk', hgrows₁.trans hgrows, hresult⟩

/-- **Every path that a restore visits is read.** -/
theorem exists_readManifest {disk : Disk} {restored : List ContextManifest}
    (hrun : restore (openStore disk) = .ok restored p') (hcontext : ["context"] ∈ disk.directories)
    (hpath : path ∈ manifestFiles disk) :
    ∃ disk', Grows disk disk' ∧ ∃ result, readManifest disk' path = .ok result := by
  have hvisits : ¬["context"] ∉ (openStore disk).disk.directories := not_not.mpr hcontext
  rw [restore, run_bind_of_ok (run_get_eq_ok.mpr ⟨rfl, rfl⟩), if_neg hvisits] at hrun
  obtain ⟨_, p₁, hfiles, -⟩ := run_bind_eq_ok.mp hrun
  exact restoreFiles_eq_ok rfl hfiles hpath

end Restoring

/-! ## What stops a restore -/

/-- No restore that starts from this reads the path. -/
def Unreadable (disk : Disk) (path : Location) : Prop :=
  ∀ disk', Grows disk disk' → ∀ result, readManifest disk' path ≠ .ok result

section Obstacles

variable {disk : Disk} {c : Compiled} {q path : Location} {bytes : List UInt8}

theorem unreadable_of_directory (hdir : q ∈ disk.directories) (hread : disk.read q = none) :
    Unreadable disk q := by
  intro disk' hgrows result
  rw [readManifest]
  simp only [hgrows.read_of_mem hdir hread]
  rintro ⟨⟩

theorem unreadable_of_part (hread : disk.read q = some bytes)
    (hpart : ∀ document, loadDocument bytes ≠ .ok document) : Unreadable disk q := by
  intro disk' hgrows result h
  rw [readManifest] at h
  simp only [hgrows.read_of_some hread] at h
  obtain ⟨document, hload, -⟩ := bind_eq_ok.mp h
  exact hpart document hload

/-- What is read with a manifest whose file is complete. -/
theorem convertible_of_readManifest {result : ContextManifest × List ContextRecordBinding}
    (hread : disk.read c.path = some c.bytes) (h : readManifest disk c.path = .ok result) :
    c.manifest.Convertible ∧ ∃ bindings, restoreBindings disk c.manifest = .ok bindings := by
  rw [readManifest] at h
  simp only [hread, loadDocument_bytes, ok_bind] at h
  obtain ⟨m, hm, h⟩ := bind_eq_ok.mp h
  have hconvertible := ContextManifest.convertible_of_fromDocument hm
  rw [ContextManifest.fromDocument_document hconvertible] at hm
  cases hm
  obtain ⟨bindings, hbindings, -⟩ := bind_eq_ok.mp h
  exact ⟨hconvertible, bindings, hbindings⟩

/-- A receipt that is missing, though the manifest names records. -/
theorem restoreBindings_of_missing (hbindings : c.bindings ≠ [])
    (hread : disk.read c.receiptPath = none) (bindings : List ContextRecordBinding) :
    restoreBindings disk c.manifest ≠ .ok bindings := by
  have hrecords : c.manifest.records ≠ [] := by
    rw [← c.covers]
    exact mt List.map_eq_nil_iff.mp hbindings
  have hnone : disk.read (bindingPath c.manifest.manifestDigest) = none := hread
  rw [restoreBindings]
  simp only [hnone, if_pos hrecords]
  rintro ⟨⟩

theorem restoreBindings_of_part (hread : disk.read c.receiptPath = some bytes)
    (hpart : ∀ document, loadDocument bytes ≠ .ok document)
    (bindings : List ContextRecordBinding) : restoreBindings disk c.manifest ≠ .ok bindings := by
  have hsome : disk.read (bindingPath c.manifest.manifestDigest) = some bytes := hread
  intro h
  rw [restoreBindings] at h
  simp only [hsome] at h
  obtain ⟨document, hload, -⟩ := bind_eq_ok.mp h
  exact hpart document hload

/-- A directory of a manifest that has the name of a file is visited. -/
theorem visited_of_isJsonPath (hmem : .makeDirectory q ∈ c.steps) (hjson : isJsonPath q = true) :
    q.head? = some "context" ∧ q.tail ≠ [] ∧ "bindings" ∉ q.tail := by
  obtain ⟨hmission, hwork, hattempt⟩ := ne_bindings c.manifest
  rw [Compiled.makeDirectory_mem_steps, Compiled.path, inits_manifestPath, Compiled.receiptPath,
    inits_bindingPath] at hmem
  simp only [List.mem_cons, List.not_mem_nil, or_false] at hmem
  have hcontext : isJsonPath ["context"] = false := by decide
  have hbindings : isJsonPath ["context", "bindings"] = false := by decide
  obtain (rfl | rfl | rfl | rfl | rfl) | ⟨-, rfl | rfl | rfl⟩ := hmem
  · cases hjson
  · exact absurd hjson (hcontext ▸ Bool.false_ne_true)
  · exact ⟨rfl, by rintro ⟨⟩, by simp [hmission.symm]⟩
  · exact ⟨rfl, by rintro ⟨⟩, by simp [hmission.symm, hwork.symm]⟩
  · exact ⟨rfl, by rintro ⟨⟩, by simp [hmission.symm, hwork.symm, hattempt.symm]⟩
  · cases hjson
  · exact absurd hjson (hcontext ▸ Bool.false_ne_true)
  · exact absurd hjson (hbindings ▸ Bool.false_ne_true)

/-- A directory that was made for a manifest does not have the name of a file, if every path that a
restore visits can be read. -/
theorem isJsonPath_eq_false_of_restored (hvisited : ∀ path ∈ manifestFiles disk, ¬Unreadable disk path)
    (hfree : ∀ q, IsParent q → disk.read q = none) (hmem : .makeDirectory q ∈ c.steps)
    (hdir : q ∈ disk.directories) : isJsonPath q = false := by
  by_contra hjson
  rw [Bool.not_eq_false] at hjson
  obtain ⟨hhead, htail, hbindings⟩ := visited_of_isJsonPath hmem hjson
  refine hvisited q (mem_manifestFiles.mpr ⟨.inl hdir, hhead, htail, hjson, hbindings⟩) ?_
  exact unreadable_of_directory hdir (hfree q (Compiled.isParent_of_mem_steps hmem))

/-- The bindings of a manifest whose file is complete are read, if every path that a restore visits
can be read. -/
theorem exists_restoreBindings
    (hvisited : ∀ path ∈ manifestFiles disk, ¬Unreadable disk path)
    (hread : disk.read c.path = some c.bytes) :
    c.manifest.Convertible ∧ ∃ disk', Grows disk disk' ∧
      ∃ bindings, restoreBindings disk' c.manifest = .ok bindings := by
  have hpath := hvisited c.path
    (path_mem_manifestFiles (Option.isSome_iff_exists.mpr ⟨_, hread⟩))
  simp only [Unreadable, not_forall, not_not] at hpath
  obtain ⟨disk', hgrows, result, hresult⟩ := hpath
  obtain ⟨hconvertible, hbindings⟩ :=
    convertible_of_readManifest (hgrows.read_of_some hread) hresult
  exact ⟨hconvertible, disk', hgrows, hbindings⟩

/-- A manifest whose file is complete is readable, if every path that a restore visits can be
read. -/
theorem readable_of_restored (hvisited : ∀ path ∈ manifestFiles disk, ¬Unreadable disk path)
    (hfree : ∀ q, IsParent q → disk.read q = none)
    (hmade : ∀ q, .makeDirectory q ∈ c.steps → q ∈ disk.directories)
    (hread : disk.read c.path = some c.bytes) : c.Readable := by
  obtain ⟨hconvertible, -⟩ := exists_restoreBindings hvisited hread
  have hnames : ∀ q ∈ c.path.dropLast.inits, isJsonPath q = false := by
    intro q hq
    have hmem := Compiled.makeDirectory_mem_steps.mpr (.inl hq)
    exact isJsonPath_eq_false_of_restored hvisited hfree hmem (hmade q hmem)
  rw [Compiled.path, inits_manifestPath] at hnames
  simp only [List.forall_mem_cons] at hnames
  obtain ⟨-, -, hmission, hwork, hattempt, -⟩ := hnames
  exact ⟨hconvertible, hmission, hwork, hattempt⟩

end Obstacles

/-! ## Where a process can be stopped -/

section Stops

variable {α : Type} {taken xs ys : List α} {c : Compiled} {steps : List FsStep} {q path : Location}
  {bytes : List UInt8}

omit [Hash256] in
/-- What was taken of two stages ends in the first stage, or is all of it and part of the second. -/
private theorem prefix_append_cases (h : taken <+: xs ++ ys) :
    (taken <+: xs ∧ taken ≠ xs) ∨ ∃ rest, rest <+: ys ∧ taken = xs ++ rest := by
  rcases List.prefix_or_prefix_of_prefix h (List.prefix_append xs ys) with hfirst | ⟨rest, rfl⟩
  · by_cases heq : taken = xs
    · exact .inr ⟨[], List.nil_prefix, by rw [heq, List.append_nil]⟩
    · exact .inl ⟨hfirst, heq⟩
  · exact .inr ⟨rest, (List.prefix_append_right_inj xs).mp h, rfl⟩

omit [Hash256] in
private theorem prefix_writing_cases (h : steps <+: writing path bytes) :
    steps = [] ∨ ∃ part, part <+: bytes ∧ steps = writing path part := by
  rcases List.prefix_cons_iff.mp h with rfl | ⟨rest, rfl, hrest⟩
  · exact .inl rfl
  · obtain ⟨part, hpart, rfl⟩ := List.prefix_map_iff.mp hrest
    exact .inr ⟨part, hpart, rfl⟩

/-- The steps of a call that were taken, by the file that the process was stopped at. -/
inductive Taken (c : Compiled) : List FsStep → Prop
  | before {made : List FsStep} (hmade : made <+: directoriesOf c.path) : Taken c made
  | inManifest {part : List UInt8} (hpart : part <+: c.bytes) (hne : part ≠ c.bytes) :
    Taken c (directoriesOf c.path ++ writing c.path part)
  | between {made : List FsStep} (hbindings : c.bindings ≠ [])
    (hmade : made <+: directoriesOf c.receiptPath) : Taken c (c.manifestSteps ++ made)
  | inReceipt {part : List UInt8} (hbindings : c.bindings ≠ []) (hpart : part <+: c.receiptBytes)
    (hne : part ≠ c.receiptBytes) :
    Taken c (c.manifestSteps ++ (directoriesOf c.receiptPath ++ writing c.receiptPath part))
  | complete : Taken c c.steps

theorem taken_of_prefix (h : steps <+: c.steps) : Taken c steps := by
  have hsteps : c.steps = c.manifestSteps ++ c.receiptSteps := by rw [Compiled.steps]
  rw [hsteps] at h
  rcases prefix_append_cases h with ⟨hmanifest, hpart⟩ | ⟨rest, hrest, rfl⟩
  · rcases prefix_append_cases hmanifest with ⟨hmade, -⟩ | ⟨rest, hrest, rfl⟩
    · exact .before hmade
    · rcases prefix_writing_cases hrest with rfl | ⟨part, hbytes, rfl⟩
      · exact .before (by rw [List.append_nil])
      · exact .inManifest hbytes fun heq ↦ hpart (by rw [heq, Compiled.manifestSteps])
  · by_cases hbindings : c.bindings = []
    · rw [Compiled.receiptSteps, if_pos hbindings, List.prefix_nil] at hrest
      have hall : c.manifestSteps ++ rest = c.steps := by
        rw [hsteps, hrest, Compiled.receiptSteps, if_pos hbindings]
      rw [hall]
      exact .complete
    · rw [Compiled.receiptSteps, if_neg hbindings] at hrest
      rcases prefix_append_cases hrest with ⟨hmade, -⟩ | ⟨rest', hwritten, rfl⟩
      · exact .between hbindings hmade
      · rcases prefix_writing_cases hwritten with rfl | ⟨part, hbytes, rfl⟩
        · exact .between hbindings (by rw [List.append_nil])
        · by_cases hne : part = c.receiptBytes
          · have hall : c.manifestSteps ++ (directoriesOf c.receiptPath ++
                writing c.receiptPath part) = c.steps := by
              rw [hsteps, hne, Compiled.receiptSteps, if_neg hbindings]
            rw [hall]
            exact .complete
          · exact .inReceipt hbindings hbytes hne

/-- A file that a call writes is one of its two. -/
theorem path_of_mem_steps {step : FsStep} (h : step ∈ c.steps) :
    (∃ made, step = .makeDirectory made) ∨ step.path = c.path ∨ step.path = c.receiptPath := by
  have hdirectories : ∀ {path : Location}, step ∈ directoriesOf path →
      ∃ made, step = .makeDirectory made := by
    intro path hmem
    obtain ⟨made, -, rfl⟩ := List.mem_map.mp hmem
    exact ⟨made, rfl⟩
  have hwriting : ∀ {path : Location} {bytes : List UInt8}, step ∈ writing path bytes →
      step.path = path := by
    intro path bytes hmem
    rcases List.mem_cons.mp hmem with rfl | hmem
    · rfl
    · obtain ⟨byte, -, rfl⟩ := List.mem_map.mp hmem
      rfl
  rw [Compiled.steps, List.mem_append, Compiled.manifestSteps, List.mem_append,
    Compiled.receiptSteps] at h
  rcases h with (h | h) | h
  · exact .inl (hdirectories h)
  · exact .inr (.inl (hwriting h))
  · split at h
    · cases h
    · rcases List.mem_append.mp h with h | h
      · exact .inl (hdirectories h)
      · exact .inr (.inr (hwriting h))

end Stops

/-! ## What is there after a stop -/

section After

variable {p : StoreProcess} {c last : Compiled} {stored : List Compiled} {disk : Disk} {cut : Nat}

/-- A call with a digest of its own leaves the steps that it took. -/
theorem interrupted_of_fresh (hdisk : Holds p.disk stored) (hmemory : Remembers p stored)
    (hfresh : ∀ c' ∈ stored, c'.digest ≠ c.digest) :
    interrupted p c cut = (c.steps.take cut).foldl Disk.apply p.disk := by
  have hdisk' : Holds ({ p with left := some cut } : StoreProcess).disk stored := hdisk
  have hmemory' : Remembers { p with left := some cut } stored :=
    ⟨hmemory.manifests, hmemory.bindings⟩
  rw [interrupted, call_of_fresh hdisk' hmemory' (fun _ h ↦ h) hfresh]
  by_cases h : Suffices c.steps { p with left := some cut }
  · rw [run_bind_of_ok (perform_of_suffices h)]
    rfl
  · rw [run_bind_of_error (perform_of_not_suffices h)]
    rfl

/-- A call with a digest that was stored before leaves the files as they were. -/
theorem interrupted_of_stored (hdisk : Holds p.disk stored) (hmemory : Remembers p stored)
    {c' : Compiled} (hc' : c' ∈ stored) (hdigest : c'.digest = c.digest) :
    interrupted p c cut = p.disk := by
  have hmemory' : Remembers { p with left := some cut } stored :=
    ⟨hmemory.manifests, hmemory.bindings⟩
  rw [interrupted]
  by_cases hsame : c' = c
  · exact (call_of_mem (p := { p with left := some cut }) hdisk (hsame ▸ hc') hmemory'
      fun _ h ↦ h).1
  · obtain ⟨e, hcall⟩ := call_of_conflict hmemory' hc' hdigest hsame
    rw [hcall]
    rfl

/-- No file is at the place of a directory. -/
theorem Holds.read_of_isParent (hdisk : Holds disk stored) {q : Location} (hq : IsParent q) :
    disk.read q = none := by
  refine Option.eq_none_iff_forall_ne_some.mpr fun bytes h ↦ ?_
  obtain ⟨c', -, ⟨hpath, -⟩ | ⟨-, hpath, -⟩⟩ := (hdisk.files _ _).mp h
  · exact hq.ne_manifestPath _ hpath
  · exact hq.ne_bindingPath _ hpath

theorem context_mem_of_holds (hdisk : Holds disk stored) (hc : c ∈ stored) :
    ["context"] ∈ disk.directories := by
  refine hdisk.made c hc _ (Compiled.makeDirectory_mem_steps.mpr (.inl ?_))
  rw [Compiled.path, inits_manifestPath]
  exact List.mem_cons_of_mem _ List.mem_cons_self

/-- Every path that a restore visited can be read. -/
theorem visited_of_restored {restored : List ContextManifest}
    (hrun : restore (openStore disk) = .ok restored p) (hcontext : ["context"] ∈ disk.directories) :
    ∀ path ∈ manifestFiles disk, ¬Unreadable disk path := by
  intro path hpath hunreadable
  obtain ⟨disk', hgrows, result, hresult⟩ := exists_readManifest hrun hcontext hpath
  exact hunreadable disk' hgrows result hresult

/-- A new store can be restored. -/
def Restorable (disk : Disk) : Prop := ∃ restored p, restore (openStore disk) = .ok restored p

/-- If all files are complete, what is held can be restored if and only if it is readable. -/
theorem restorable_iff_of_holds (hdisk : Holds disk stored) :
    Restorable disk ↔ ∀ c ∈ stored, c.Readable := by
  constructor
  · rintro ⟨restored, p, hrun⟩ c hc
    have hvisited := visited_of_restored hrun (context_mem_of_holds hdisk hc)
    have hread : disk.read c.path = some c.bytes :=
      (hdisk.files _ _).mpr ⟨c, hc, .inl ⟨rfl, rfl⟩⟩
    exact readable_of_restored hvisited (fun q hq ↦ hdisk.read_of_isParent hq) (hdisk.made c hc)
      hread
  · intro hreadable
    obtain ⟨restored, p, hrun, -⟩ := restore_of_holds hdisk hreadable
    exact ⟨restored, p, hrun⟩

/-- The second directory that a call makes is the one that a restore looks for. -/
private theorem root_or_context_mem {steps : List FsStep} (h : steps <+: c.steps) :
    (∀ step ∈ steps, step = .makeDirectory []) ∨ .makeDirectory ["context"] ∈ steps := by
  obtain ⟨rest, hsteps⟩ : ∃ rest, c.steps =
      .makeDirectory [] :: .makeDirectory ["context"] :: rest := by
    rw [Compiled.steps, Compiled.manifestSteps, directoriesOf, Compiled.path, inits_manifestPath]
    exact ⟨_, rfl⟩
  rw [hsteps, List.prefix_cons_iff] at h
  rcases h with rfl | ⟨steps, rfl, h⟩
  · exact .inl (List.forall_mem_nil _)
  rcases List.prefix_cons_iff.mp h with rfl | ⟨steps, rfl, -⟩
  · exact .inl fun step hstep ↦ List.mem_singleton.mp hstep
  · exact .inr (List.mem_cons_of_mem _ List.mem_cons_self)

/-- A restore after a stop means that the steps taken were of directories only, none of which has
the name of a file, or that they are all. -/
theorem quiet_or_complete_of_restorable {steps : List FsStep} (hdisk : Holds disk stored)
    (hfresh : ∀ c' ∈ stored, c'.digest ≠ c.digest) (hsteps : steps <+: c.steps)
    (h : Restorable (steps.foldl Disk.apply disk)) :
    (∀ step ∈ steps, ∃ q, step = .makeDirectory q ∧ isJsonPath q = false) ∨ steps = c.steps := by
  obtain ⟨restored, p, hrun⟩ := h
  rcases root_or_context_mem hsteps with hroot | hcontext
  · exact .inl fun step hstep ↦ ⟨[], hroot step hstep, rfl⟩
  have hvisited := visited_of_restored hrun (Disk.mem_directories_foldl.mpr (.inr hcontext))
  have hfree : ∀ q, IsParent q → (steps.foldl Disk.apply disk).read q = none := by
    intro q hq
    rw [Disk.read_foldl_of_ne, hdisk.read_of_isParent hq]
    intro step hstep
    rcases path_of_mem_steps (hsteps.subset hstep) with hmade | hpath | hpath
    · exact .inl hmade
    · exact .inr (hpath ▸ (hq.ne_manifestPath c.manifest).symm)
    · exact .inr (hpath ▸ (hq.ne_bindingPath c.digest).symm)
  have hnames : ∀ q, .makeDirectory q ∈ steps → isJsonPath q = false := by
    intro q hmem
    exact isJsonPath_eq_false_of_restored hvisited hfree (hsteps.subset hmem)
      (Disk.mem_directories_foldl.mpr (.inr hmem))
  have hreceipt : disk.read c.receiptPath = none :=
    Holds.read_receiptPath (p := openStore disk) hdisk hfresh
  -- the directories of a receipt leave both files as they are
  have hdirectories : ∀ {made : List FsStep} (disk' : Disk) (q : Location),
      made <+: directoriesOf c.receiptPath →
        (made.foldl Disk.apply disk').read q = disk'.read q := by
    intro made disk' q hmade
    refine Disk.read_foldl_of_ne fun step hstep ↦ .inl ?_
    obtain ⟨q, -, rfl⟩ := List.mem_map.mp (hmade.subset hstep)
    exact ⟨q, rfl⟩
  cases taken_of_prefix hsteps with
  | before hmade =>
    refine .inl fun step hstep ↦ ?_
    obtain ⟨q, -, rfl⟩ := List.mem_map.mp (hmade.subset hstep)
    exact ⟨q, rfl, hnames q hstep⟩
  | @inManifest part hpart hne =>
    rw [List.foldl_append] at hvisited
    have hread := Disk.read_foldl_writing c.path part ((directoriesOf c.path).foldl Disk.apply disk)
    refine absurd ?_ (hvisited c.path (path_mem_manifestFiles (Option.isSome_of_eq_some hread)))
    exact unreadable_of_part hread (loadDocument_of_prefix_bytes hpart hne)
  | between hbindings hmade =>
    rw [List.foldl_append] at hvisited
    have hread := hdirectories (c.manifestSteps.foldl Disk.apply disk) c.path hmade
    rw [read_manifestSteps, if_pos rfl] at hread
    have hnone := hdirectories (c.manifestSteps.foldl Disk.apply disk) c.receiptPath hmade
    rw [read_manifestSteps, if_neg Compiled.path_ne_receiptPath.symm, hreceipt] at hnone
    obtain ⟨-, disk', hgrows, bindings, hrestored⟩ := exists_restoreBindings hvisited hread
    exact absurd hrestored
      (restoreBindings_of_missing hbindings (hgrows.read_bindingPath hnone) bindings)
  | inReceipt hbindings hpart hne =>
    rw [List.foldl_append, List.foldl_append] at hvisited
    have hread := hdirectories (c.manifestSteps.foldl Disk.apply disk) c.path List.prefix_rfl
    rw [read_manifestSteps, if_pos rfl,
      ← Disk.read_foldl_writing_of_ne Compiled.path_ne_receiptPath] at hread
    obtain ⟨-, disk', hgrows, bindings, hrestored⟩ := exists_restoreBindings hvisited hread
    refine absurd hrestored (restoreBindings_of_part (hgrows.read_of_some ?_)
      (loadDocument_of_prefix_receiptBytes hpart hne) bindings)
    exact Disk.read_foldl_writing _ _ _
  | complete => exact .inr rfl

end After

/-! ## Surviving a stop -/

section Surviving

variable {calls held : List Compiled} {last : Compiled} {cut : Nat}

/-- A store survives a stop that left only complete files if what is held is readable, and does not
bind the digest of the interrupted manifest to anything else. -/
theorem survives_iff_of_holds (hdisk : Holds (interrupted (session calls).1 last cut) held)
    (hstored : ∀ c ∈ (session calls).2, c ∈ held) :
    Survives calls last cut ↔
      ∀ c ∈ held, c.Readable ∧ (c.digest = last.digest → c = last) := by
  constructor
  · rintro ⟨restored, p, p', hrun, -, hcall⟩
    have hreadable := (restorable_iff_of_holds hdisk).mp ⟨restored, p, hrun⟩
    obtain ⟨_, _, hrun', -, -, hmemory, -⟩ := restore_of_holds hdisk hreadable
    rw [hrun] at hrun'
    cases hrun'
    refine fun c hc ↦ ⟨hreadable c hc, fun hdigest ↦ ?_⟩
    by_contra hne
    obtain ⟨e, herror⟩ := call_of_conflict hmemory hc hdigest hne
    rw [hcall] at herror
    exact nomatch herror
  · intro h
    obtain ⟨restored, p, hrun, hdisk', hleft, hmemory, hall⟩ :=
      restore_of_holds hdisk fun c hc ↦ (h c hc).1
    rw [← hdisk'] at hdisk
    have hcall : ∃ p', last.call p = .ok () p' := by
      by_cases hmem : last ∈ held
      · obtain ⟨p', hok, -⟩ := (call_of_mem hdisk hmem hmemory fun _ h ↦ h).2 hleft
        exact ⟨p', hok⟩
      · have hfresh : ∀ c ∈ held, c.digest ≠ last.digest :=
          fun c hc hdigest ↦ hmem ((h c hc).2 hdigest ▸ hc)
        obtain ⟨p', hok, -⟩ := call_of_fresh_of_none hleft hdisk hmemory hfresh
        exact ⟨p', hok⟩
    obtain ⟨p', hok⟩ := hcall
    refine ⟨restored, p, p', hrun, fun c hc ↦ ⟨hall c (hstored c hc), ?_⟩, hok⟩
    exact (hmemory.bindings _ _).mpr ⟨c, hstored c hc, rfl, rfl⟩

/-- The steps that are taken before a stop are of directories only, none of which has the name of a
file, or they are all, and what they wrote is readable. -/
def Sheltered (c : Compiled) (cut : Nat) : Prop :=
  (∀ step ∈ c.steps.take cut, ∃ q, step = .makeDirectory q ∧ isJsonPath q = false) ∨
    c.steps.length ≤ cut ∧ c.Readable

/-- A call with a digest of its own is survived if and only if its stop was sheltered. -/
theorem survives_iff_of_fresh (hfresh : ∀ c ∈ (session calls).2, c.digest ≠ last.digest) :
    Survives calls last cut ↔
      (∀ c ∈ (session calls).2, c.Readable) ∧ Sheltered last cut := by
  obtain ⟨-, hdisk, hmemory⟩ := holds_session calls
  have hleft : interrupted (session calls).1 last cut =
      (last.steps.take cut).foldl Disk.apply (session calls).1.disk :=
    interrupted_of_fresh hdisk hmemory hfresh
  by_cases hquiet : ∀ step ∈ last.steps.take cut,
      ∃ q, step = .makeDirectory q ∧ isJsonPath q = false
  · -- nothing was added to what is held
    have hheld : Holds (interrupted (session calls).1 last cut) (session calls).2 := by
      rw [hleft]
      refine hdisk.quiet fun step hstep ↦ ?_
      obtain ⟨q, rfl, hname⟩ := hquiet step hstep
      exact ⟨q, rfl, Compiled.isParent_of_mem_steps (List.mem_of_mem_take hstep), hname⟩
    rw [survives_iff_of_holds hheld fun _ h ↦ h]
    constructor
    · exact fun h ↦ ⟨fun c hc ↦ (h c hc).1, .inl hquiet⟩
    · exact fun h c hc ↦ ⟨h.1 c hc, fun hdigest ↦ absurd hdigest (hfresh c hc)⟩
  by_cases hcut : last.steps.length ≤ cut
  · -- the manifest and its bindings were added
    have hheld := hdisk.steps hfresh
    rw [← List.take_of_length_le hcut, ← hleft] at hheld
    rw [survives_iff_of_holds hheld fun _ h ↦ List.mem_append_left _ h]
    simp only [List.mem_append, List.mem_singleton, or_imp, forall_and, forall_eq]
    constructor
    · rintro ⟨⟨hreadable, hlast⟩, -⟩
      exact ⟨hreadable, .inr ⟨hcut, hlast⟩⟩
    · rintro ⟨hreadable, hshelter⟩
      obtain ⟨-, hlast⟩ := hshelter.resolve_left hquiet
      exact ⟨⟨hreadable, hlast⟩, fun c hc hdigest ↦ absurd hdigest (hfresh c hc), fun _ ↦ trivial⟩
  · -- part of a file was added
    constructor
    · rintro ⟨restored, p, -, hrun, -⟩
      have hrestorable : Restorable ((last.steps.take cut).foldl Disk.apply (session calls).1.disk) :=
        ⟨restored, p, hleft ▸ hrun⟩
      rcases quiet_or_complete_of_restorable hdisk hfresh (List.take_prefix _ _) hrestorable with
        h | h
      · exact absurd h hquiet
      · exact absurd (List.take_eq_self_iff _ |>.mp h) hcut
    · rintro ⟨-, h | ⟨h, -⟩⟩
      · exact absurd h hquiet
      · exact absurd h hcut

/-- **A store that was stopped in a call survives if and only if every manifest that it held is
readable and none binds the digest of the interrupted one to anything else, and the interrupted one
was held already or its stop was sheltered.** -/
theorem survives_iff (calls : List Compiled) (last : Compiled) (cut : Nat) :
    Survives calls last cut ↔
      (∀ c ∈ (session calls).2, c.Readable ∧ (c.digest = last.digest → c = last)) ∧
        (last ∈ (session calls).2 ∨ Sheltered last cut) := by
  obtain ⟨-, hdisk, hmemory⟩ := holds_session calls
  by_cases hfresh : ∀ c ∈ (session calls).2, c.digest ≠ last.digest
  · rw [survives_iff_of_fresh hfresh]
    have hnew : last ∉ (session calls).2 := fun hlast ↦ hfresh last hlast rfl
    simp only [hnew, false_or]
    refine and_congr_left fun _ ↦ forall₂_congr fun c hc ↦ ?_
    exact ⟨fun h ↦ ⟨h, fun hdigest ↦ absurd hdigest (hfresh c hc)⟩, And.left⟩
  · simp only [not_forall, not_not] at hfresh
    obtain ⟨c, hc, hdigest⟩ := hfresh
    have hheld : Holds (interrupted (session calls).1 last cut) (session calls).2 := by
      rw [interrupted_of_stored hdisk hmemory hc hdigest]
      exact hdisk
    rw [survives_iff_of_holds hheld fun _ h ↦ h]
    constructor
    · exact fun h ↦ ⟨h, .inl ((h c hc).2 hdigest ▸ hc)⟩
    · exact And.left

end Surviving

end HiveMind.Context

/-! ## A stop that is not survived -/

namespace HiveMind

/-- What is compiled for a first attempt from an empty memory. -/
def emptyContext [Hash256] : ContextManifest where
  missionId := "MISSION-1"
  workId := "WORK-1"
  attemptId := "ATTEMPT-1"
  role := "builder"
  charterDigest := jsonDigest .null
  authorityDigest := jsonDigest .null
  tokenBudget := 0
  estimatedTokens := 0
  hotItems := []
  warmItems := []
  coldReferences := []
  excludedCategories := []
  excludedCounts := ⟨[("budget", 0)], List.pairwise_singleton _ _⟩
  conflictRecords := []
  generatorEvaluatorSeparated := false
  manifestDigest := jsonDigest .null
  valid := ⟨by decide, by decide, by decide, by decide, isDigest_jsonDigest _,
    isDigest_jsonDigest _, Nat.le_refl _, isDigest_jsonDigest _⟩

namespace Context

def emptyCompiled [Hash256] : Compiled :=
  ⟨emptyContext.seal, [], emptyContext.manifestDigest_seal, rfl, nofun⟩

private theorem not_survives_emptyCompiled [Hash256] : ¬Survives [] emptyCompiled 6 := by
  have hfresh : ∀ c ∈ (session []).2, c.digest ≠ emptyCompiled.digest := by rintro _ ⟨⟩
  have hsteps : emptyCompiled.steps = directoriesOf emptyCompiled.path ++
      writing emptyCompiled.path emptyCompiled.bytes := by
    rw [Compiled.steps, Compiled.receiptSteps, if_pos (show emptyCompiled.bindings = [] from rfl),
      List.append_nil, Compiled.manifestSteps]
  have htaken : .createFile emptyCompiled.path ∈ emptyCompiled.steps.take 6 := by
    rw [hsteps, directoriesOf, Compiled.path, inits_manifestPath]
    exact List.mem_of_getLast? rfl
  rw [survives_iff_of_fresh hfresh]
  rintro ⟨-, hquiet | ⟨hall, -⟩⟩
  · obtain ⟨q, hq, -⟩ := hquiet _ htaken
    cases hq
  · -- the text of the manifest is not empty
    have hbytes : emptyCompiled.bytes = [] := by
      rw [hsteps, directoriesOf, Compiled.path, inits_manifestPath] at hall
      have hlength : emptyCompiled.bytes.length + 1 + 1 + 1 + 1 + 1 < 6 := by
        simpa [writing] using hall
      exact List.length_eq_zero_iff.mp (by omega)
    have hload := loadDocument_bytes emptyCompiled
    rw [hbytes] at hload
    cases hload

/-- The first call on a new store is stopped when it has created the file of its manifest. The file
is empty, and no store on the directory can be restored. -/
theorem empty_manifest_not_restored : ¬Survives [] emptyCompiled 6 :=
  not_survives_emptyCompiled

end Context

end HiveMind
