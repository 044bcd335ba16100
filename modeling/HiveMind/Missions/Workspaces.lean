import HiveMind.Lib.TextFiles
import HiveMind.Missions.Receipts

/-!
# The inventory of a workspace

A snapshot of a workspace has a hash of its files and links. The bytes that are hashed are, in the
order of the paths, a mark, the path and the content of each, with a zero byte after the mark and
after the path. Nothing is said of where a content ends, and the content of a file may hold anything,
also the mark and the path of a file that is not there.

What a link may hold is left open here: anything, or only bytes that are not zero.

* **`inventory_unambiguous_iff`**: the inventory of a tree is that of no other tree if and only if a
  content that may hold anything is the last one, and does not end with the mark, the path and the
  content of something that could follow it.
-/

namespace HiveMind.Missions

/-! ## Trees -/

/-- The content of a file, or the target of a link. -/
inductive Content where
  | file (bytes : List UInt8)
  | link (target : List UInt8)
  deriving DecidableEq

namespace Content

def tag : Content → UInt8
  | file _ => 70
  | link _ => 76

def bytes : Content → List UInt8
  | file bytes => bytes
  | link target => target

/-- Other bytes of the same kind. -/
def withBytes : Content → List UInt8 → Content
  | file _, bytes => file bytes
  | link _, target => link target

variable {content content' : Content}

theorem withBytes_bytes (h : content.tag = content'.tag) :
    content.withBytes content'.bytes = content' := by
  rcases content with _ | _ <;> rcases content' with _ | _
  · rfl
  · exact absurd h (show (70 : UInt8) ≠ 76 by decide)
  · exact absurd h (show (76 : UInt8) ≠ 70 by decide)
  · rfl

theorem bytes_withBytes {bytes : List UInt8} : (content.withBytes bytes).bytes = bytes := by
  rcases content with _ | _ <;> rfl

theorem withBytes_withBytes {bytes bytes' : List UInt8} :
    (content.withBytes bytes).withBytes bytes' = content.withBytes bytes' := by
  rcases content with _ | _ <;> rfl

theorem tag_withBytes {bytes : List UInt8} : (content.withBytes bytes).tag = content.tag := by
  rcases content with _ | _ <;> rfl

theorem tag_ne_zero : content.tag ≠ 0 := by
  rcases content with _ | _
  · exact show (70 : UInt8) ≠ 0 by decide
  · exact show (76 : UInt8) ≠ 0 by decide

end Content

/-- A path below the repository that does not go through `.git`. -/
def IsRepositoryPath (path : String) : Prop :=
  '\x00' ∉ path.toList ∧ ∀ part ∈ path.toList.splitOn '/',
    part ∉ [[], ['.'], ['.', '.'], ['.', 'g', 'i', 't']]

instance : DecidablePred IsRepositoryPath := fun _ ↦ inferInstanceAs (Decidable (_ ∧ _))

/-- Paths that files and links of one repository can have, in the order of an inventory. -/
structure IsLayout (paths : List String) : Prop where
  sorted : paths.Pairwise (· < ·)
  isPath : ∀ path ∈ paths, IsRepositoryPath path
  apart : ∀ path ∈ paths, ∀ path' ∈ paths, ¬path.toList ++ ['/'] <+: path'.toList

theorem IsLayout.sublist {paths paths' : List String} (h : IsLayout paths)
    (hsub : paths'.Sublist paths) : IsLayout paths' where
  sorted := h.sorted.sublist hsub
  isPath path hpath := h.isPath path (hsub.subset hpath)
  apart path hpath path' hpath' := h.apart path (hsub.subset hpath) path' (hsub.subset hpath')

/-- Paths with what is there. A link has one of the `targets`. -/
structure IsTree (targets : List UInt8 → Prop) (entries : List (String × Content)) : Prop where
  layout : IsLayout (entries.map Prod.fst)
  target : ∀ entry ∈ entries, ∀ target, entry.2 = .link target → targets target

structure FileTree (targets : List UInt8 → Prop) where
  entries : List (String × Content)
  isTree : IsTree targets entries

/-! ## The inventory -/

/-- What `inventory.update` is called with for one path. -/
def entryBytes (entry : String × Content) : List UInt8 :=
  entry.2.tag :: 0 :: (encodeText entry.1 ++ 0 :: entry.2.bytes)

/-- What it is called with for all of them. -/
def inventoryOf (entries : List (String × Content)) : List UInt8 := entries.flatMap entryBytes

theorem inventoryOf_cons (entry : String × Content) (entries : List (String × Content)) :
    inventoryOf (entry :: entries) =
      entry.2.tag :: 0 :: (encodeText entry.1 ++ 0 :: (entry.2.bytes ++ inventoryOf entries)) := by
  simp only [inventoryOf, List.flatMap_cons, entryBytes, List.cons_append, List.append_assoc]

theorem inventoryOf_eq_nil {entries : List (String × Content)} :
    inventoryOf entries = [] ↔ entries = [] := by
  rcases entries with _ | ⟨entry, entries⟩
  · exact iff_of_true rfl rfl
  · rw [inventoryOf_cons]
    exact iff_of_false (List.cons_ne_nil _ _) (List.cons_ne_nil _ _)

/-- What Git says of a workspace. -/
structure GitTexts where
  headSha : String
  headTree : String
  status : String

structure WorkspaceSnapshot where
  headSha : String
  headTree : String
  statusDigest : String
  contentDigest : String
  deriving DecidableEq

section Snapshot

variable [Hash256] {targets : List UInt8 → Prop}

/-- The hash of the inventory. -/
def FileTree.contentDigest (tree : FileTree targets) : String :=
  "sha256:" ++ String.ofList ((Hash256.digest (inventoryOf tree.entries)).toList.flatMap
    Hash256.hexByte)

/-- `workspace_snapshot`. A workspace is reconciled if it has the snapshot that was recorded. -/
def workspaceSnapshot (git : GitTexts) (tree : FileTree targets) : WorkspaceSnapshot where
  headSha := git.headSha
  headTree := git.headTree
  statusDigest := sha256Digest git.status
  contentDigest := tree.contentDigest

end Snapshot

/-! ## Zero bytes -/

theorem zero_notMem_utf8EncodeChar {c : Char} (h : c ≠ '\x00') : 0 ∉ String.utf8EncodeChar c := by
  have hbyte : ∀ n : Nat, n % 256 ≠ 0 → (0 : UInt8) ≠ UInt8.ofNat n := by
    intro n hn heq
    have hnat := congrArg UInt8.toNat heq
    rw [UInt8.toNat_ofNat'] at hnat
    exact hn hnat.symm
  have hval : c.val.toNat ≠ 0 := by
    intro hzero
    exact h (Char.ext (UInt32.toNat_inj.mp hzero))
  fun_cases String.utf8EncodeChar c <;> simp only [List.mem_cons, List.not_mem_nil, or_false, not_or]
  · exact hbyte _ (by omega)
  · exact ⟨hbyte _ (by omega), hbyte _ (by omega)⟩
  · exact ⟨hbyte _ (by omega), hbyte _ (by omega), hbyte _ (by omega)⟩
  · exact ⟨hbyte _ (by omega), hbyte _ (by omega), hbyte _ (by omega), hbyte _ (by omega)⟩

theorem zero_notMem_encodeText {text : String} (h : '\x00' ∉ text.toList) : 0 ∉ encodeText text := by
  rw [encodeText, List.mem_flatMap]
  rintro ⟨c, hc, hzero⟩
  exact zero_notMem_utf8EncodeChar (fun hnul ↦ h (hnul ▸ hc)) hzero

/-- A zero byte ends what has none. -/
theorem append_zero_inj {xs ys s t : List UInt8} (hxs : 0 ∉ xs) (hys : 0 ∉ ys)
    (h : xs ++ 0 :: s = ys ++ 0 :: t) : xs = ys ∧ s = t := by
  induction xs generalizing ys with
  | nil =>
    rcases ys with _ | ⟨y, ys⟩
    · exact ⟨rfl, (List.cons.inj h).2⟩
    · exact absurd (List.cons.inj h).1 fun hzero ↦ hys (hzero ▸ List.mem_cons_self)
  | cons x xs ih =>
    rcases ys with _ | ⟨y, ys⟩
    · exact absurd (List.cons.inj h).1 fun hzero ↦ hxs (hzero ▸ List.mem_cons_self)
    · obtain ⟨rfl, htail⟩ := List.cons.inj h
      obtain ⟨rfl, rfl⟩ := ih (fun hmem ↦ hxs (List.mem_cons_of_mem _ hmem))
        (fun hmem ↦ hys (List.mem_cons_of_mem _ hmem)) htail
      exact ⟨rfl, rfl⟩

/-- An inventory is empty or begins with a mark and a zero byte. -/
theorem inventoryOf_cases (entries : List (String × Content)) :
    inventoryOf entries = [] ∨ ∃ tag rest, tag ≠ 0 ∧ inventoryOf entries = tag :: 0 :: rest := by
  rcases entries with _ | ⟨entry, entries⟩
  · exact .inl rfl
  · exact .inr ⟨_, _, entry.2.tag_ne_zero, inventoryOf_cons entry entries⟩

/-- Bytes without a zero end before the inventory that follows them. -/
theorem append_inventoryOf_inj {xs ys : List UInt8} {entries entries' : List (String × Content)}
    (hxs : 0 ∉ xs) (hys : 0 ∉ ys) (h : xs ++ inventoryOf entries = ys ++ inventoryOf entries') :
    xs = ys ∧ inventoryOf entries = inventoryOf entries' := by
  rcases inventoryOf_cases entries with hnil | ⟨tag, rest, htag, hcons⟩ <;>
    rcases inventoryOf_cases entries' with hnil' | ⟨tag', rest', htag', hcons'⟩
  · rw [hnil, hnil', List.append_nil, List.append_nil] at h
    exact ⟨h, hnil.trans hnil'.symm⟩
  · rw [hnil, hcons', List.append_nil] at h
    exact absurd (h ▸ List.mem_append_right _ (List.mem_cons_of_mem _ List.mem_cons_self)) hxs
  · rw [hcons, hnil', List.append_nil] at h
    exact absurd (h ▸ List.mem_append_right _ (List.mem_cons_of_mem _ List.mem_cons_self)) hys
  · rw [hcons, hcons', List.append_cons xs, List.append_cons ys] at h
    have hmarked : ∀ {zs : List UInt8} {mark : UInt8}, 0 ∉ zs → mark ≠ 0 → 0 ∉ zs ++ [mark] := by
      intro zs mark hzs hmark hmem
      rcases List.mem_append.mp hmem with hmem | hmem
      · exact hzs hmem
      · exact hmark (List.mem_singleton.mp hmem).symm
    obtain ⟨hsame, hrest⟩ := append_zero_inj (hmarked hxs htag) (hmarked hys htag') h
    obtain ⟨rfl, hlast⟩ := List.append_inj' hsame rfl
    exact ⟨rfl, by rw [hcons, hcons', hrest, (List.cons.inj hlast).1]⟩

/-! ## Trees that are told apart -/

section Plain

variable {targets : List UInt8 → Prop}

/-- A content that may hold anything. -/
def IsOpen (targets : List UInt8 → Prop) : Content → Prop
  | .file _ => True
  | .link _ => ∀ target, targets target

/-- A content that may hold anything is the last one, and does not end with the bytes of an entry that
could follow it. -/
def IsPlain (targets : List UInt8 → Prop) (entries : List (String × Content)) : Prop :=
  ∀ before path content after, entries = before ++ (path, content) :: after →
    IsOpen targets content → after = [] ∧ ∀ bytes entry,
      content.bytes = bytes ++ entryBytes entry →
        ¬IsTree targets (before ++ [(path, content.withBytes bytes), entry])

theorem IsOpen.target {content : Content} (h : IsOpen targets content) {bytes target : List UInt8}
    (hlink : content.withBytes bytes = .link target) : targets target := by
  rcases content with _ | _
  · exact nomatch hlink
  · exact h target

theorem IsOpen.of_tag {content content' : Content} (h : IsOpen targets content)
    (htag : content.tag = content'.tag) : IsOpen targets content' := by
  rw [← Content.withBytes_bytes htag]
  rcases content with _ | _
  · exact h
  · exact h

variable {before after : List (String × Content)} {path : String} {content : Content}

theorem inventoryOf_append (entries entries' : List (String × Content)) :
    inventoryOf (entries ++ entries') = inventoryOf entries ++ inventoryOf entries' :=
  List.flatMap_append

theorem inventoryOf_singleton (entry : String × Content) :
    inventoryOf [entry] = entryBytes entry :=
  List.flatMap_singleton _ _

/-- A content that may hold anything may hold what follows it. -/
theorem IsTree.absorb {kept : List (String × Content)}
    (h : IsTree targets (before ++ (path, content) :: (after ++ kept)))
    (hopen : IsOpen targets content) : IsTree targets
      (before ++ (path, content.withBytes (content.bytes ++ inventoryOf after)) :: kept) where
  layout := by
    refine h.layout.sublist ?_
    rw [List.map_append, List.map_append, List.map_cons, List.map_cons, List.map_append]
    exact (List.Sublist.refl _).append (List.cons_sublist_cons.mpr (List.sublist_append_right _ _))
  target entry hentry target hlink := by
    rcases List.mem_append.mp hentry with hbefore | hlast
    · exact h.target entry (List.mem_append_left _ hbefore) target hlink
    · rcases List.mem_cons.mp hlast with rfl | hkept
      · exact hopen.target hlink
      · exact h.target entry (List.mem_append_right _
          (List.mem_cons_of_mem _ (List.mem_append_right _ hkept))) target hlink

theorem inventoryOf_absorb {kept : List (String × Content)} : inventoryOf
    (before ++ (path, content.withBytes (content.bytes ++ inventoryOf after)) :: kept) =
      inventoryOf (before ++ (path, content) :: (after ++ kept)) := by
  rw [inventoryOf_append, inventoryOf_append, inventoryOf_cons, inventoryOf_cons,
    inventoryOf_append after kept, Content.tag_withBytes, Content.bytes_withBytes, List.append_assoc]

/-- A tree that no other one shares its inventory with is plain. -/
theorem isPlain_of_forall {tree : FileTree targets} (h : ∀ tree' : FileTree targets,
    inventoryOf tree'.entries = inventoryOf tree.entries → tree'.entries = tree.entries) :
    IsPlain targets tree.entries := by
  intro before path content after hentries hopen
  rw [hentries] at h
  have htree := hentries ▸ tree.isTree
  have hlast : after = [] := by
    rw [← List.append_nil after] at h htree
    have heq := h ⟨_, htree.absorb hopen⟩ inventoryOf_absorb
    exact (List.append_eq_nil_iff.mp (List.cons.inj (List.append_cancel_left heq)).2.symm).1
  refine ⟨hlast, fun bytes entry hbytes htree' ↦ ?_⟩
  have heq := h ⟨_, htree'⟩ ?_
  · rw [hlast] at heq
    exact List.cons_ne_nil _ _ (List.cons.inj (List.append_cancel_left heq)).2
  · have habsorb : inventoryOf (before ++
        [(path, (content.withBytes bytes).withBytes ((content.withBytes bytes).bytes ++ inventoryOf [entry]))]) =
          inventoryOf (before ++ (path, content.withBytes bytes) :: ([entry] ++ [])) :=
      inventoryOf_absorb
    rw [Content.bytes_withBytes, inventoryOf_singleton, ← hbytes, Content.withBytes_withBytes,
      Content.withBytes_bytes rfl, List.append_nil] at habsorb
    rw [hlast]
    exact habsorb.symm

variable (htargets : (∀ target, targets target) ∨ ∀ target, targets target → 0 ∉ target)

include htargets

/-- A content that may not hold anything has no zero byte. -/
theorem zero_notMem_bytes (h : IsTree targets (before ++ (path, content) :: after))
    (hopen : ¬IsOpen targets content) : 0 ∉ content.bytes := by
  rcases content with bytes | target
  · exact absurd trivial hopen
  · rcases htargets with hall | hnul
    · exact absurd hall hopen
    · exact hnul target (h.target _ (List.mem_append_right _ List.mem_cons_self) target rfl)

/-- An inventory is read in one way as long as what was read may not hold anything. -/
theorem eq_of_inventoryOf_eq {entries entries' : List (String × Content)}
    (hplain : IsPlain targets (before ++ entries)) (htree : IsTree targets (before ++ entries))
    (htree' : IsTree targets (before ++ entries')) (h : inventoryOf entries = inventoryOf entries') :
    entries = entries' := by
  induction entries generalizing before entries' with
  | nil => exact (inventoryOf_eq_nil.mp h.symm).symm
  | cons entry after ih =>
    obtain ⟨path, content⟩ := entry
    rcases entries' with _ | ⟨⟨path', content'⟩, after'⟩
    · exact inventoryOf_eq_nil.mp h
    -- The marks and the paths agree.
    rw [inventoryOf_cons, inventoryOf_cons] at h
    obtain ⟨htag, hpaths⟩ := List.cons.inj h
    have hpath : ∀ {path content after}, IsTree targets (before ++ (path, content) :: after) →
        0 ∉ encodeText path := by
      intro path content after htree
      refine zero_notMem_encodeText (htree.layout.isPath path ?_).1
      rw [List.map_append]
      exact List.mem_append_right _ List.mem_cons_self
    obtain ⟨hencoded, hbytes⟩ :=
      append_zero_inj (hpath htree) (hpath htree') (List.cons.inj hpaths).2
    obtain rfl : path = path' := by
      have hdecoded := decodeText_eq_some.mpr hencoded
      rw [decodeText_eq_some.mpr rfl] at hdecoded
      exact Option.some.inj hdecoded
    by_cases hopen : IsOpen targets content
    · obtain ⟨rfl, hends⟩ := hplain before path content after rfl hopen
      have hnil : inventoryOf ([] : List (String × Content)) = [] := rfl
      simp only [hnil, List.append_nil] at hbytes
      by_cases hmore : after' = []
      · subst hmore
        simp only [hnil, List.append_nil] at hbytes
        have hsame := Content.withBytes_bytes (show content.tag = content'.tag from htag)
        have hself := Content.withBytes_bytes (show content.tag = content.tag from rfl)
        rw [← hsame, ← hbytes, hself]
      · -- All but the last of what follows goes into the content.
        obtain ⟨after, entry, rfl⟩ := (List.eq_nil_or_concat' after').resolve_left hmore
        refine absurd (htree'.absorb (hopen.of_tag htag)) ?_
        rw [← Content.withBytes_bytes (show content.tag = content'.tag from htag),
          Content.withBytes_withBytes, Content.bytes_withBytes]
        refine hends _ _ ?_
        rw [hbytes, inventoryOf_append, inventoryOf_singleton, List.append_assoc]
    · have hopen' : ¬IsOpen targets content' := fun hopen' ↦ hopen (hopen'.of_tag htag.symm)
      obtain ⟨hsame, hafter⟩ := append_inventoryOf_inj (zero_notMem_bytes htargets htree hopen)
        (zero_notMem_bytes htargets htree' hopen') hbytes
      have hcontent : content = content' := by
        have hsame' := Content.withBytes_bytes (show content.tag = content'.tag from htag)
        have hself := Content.withBytes_bytes (show content.tag = content.tag from rfl)
        rw [← hsame', ← hsame, hself]
      subst hcontent
      rw [List.append_cons] at hplain htree htree'
      rw [ih hplain htree htree' hafter]

end Plain

/-- **The inventory of a tree is that of no other tree if and only if the tree is plain**, and then a
snapshot tells the tree from every other one, unless the hash maps their inventories to the same
digest. -/
theorem inventory_unambiguous_iff [Hash256] {targets : List UInt8 → Prop}
    (htargets : (∀ target, targets target) ∨ ∀ target, targets target → 0 ∉ target)
    (tree : FileTree targets) :
    ((∀ tree' : FileTree targets, inventoryOf tree'.entries = inventoryOf tree.entries →
        tree'.entries = tree.entries) ∧
      ∀ (tree' : FileTree targets) (git git' : GitTexts),
        (tree'.contentDigest = tree.contentDigest →
          inventoryOf tree'.entries = inventoryOf tree.entries) →
        workspaceSnapshot git' tree' = workspaceSnapshot git tree →
          tree'.entries = tree.entries) ↔ IsPlain targets tree.entries := by
  constructor
  · rintro ⟨hunambiguous, -⟩
    exact isPlain_of_forall hunambiguous
  · intro hplain
    have hunambiguous : ∀ tree' : FileTree targets,
        inventoryOf tree'.entries = inventoryOf tree.entries → tree'.entries = tree.entries := by
      intro tree' hsame
      exact (@eq_of_inventoryOf_eq _ [] htargets _ _ hplain tree.isTree tree'.isTree
        hsame.symm).symm
    refine ⟨hunambiguous, fun tree' git git' happart hsnapshot ↦ hunambiguous tree' (happart ?_)⟩
    exact congrArg WorkspaceSnapshot.contentDigest hsnapshot

/-! ## Trees that are not told apart -/

/-- What a target of a link is: bytes without a zero. -/
def IsTarget (target : List UInt8) : Prop := 0 ∉ target

theorem isTree_of_files {paths : List String} (h : IsLayout paths) {entries : List (String × Content)}
    (hpaths : entries.map Prod.fst = paths) (hfiles : ∀ entry ∈ entries, entry.2.tag = 70) :
    IsTree IsTarget entries where
  layout := hpaths ▸ h
  target entry hentry target hlink := by
    have htag := hfiles entry hentry
    rw [hlink] at htag
    exact absurd htag (show (76 : UInt8) ≠ 70 by decide)

theorem isLayout_ab : IsLayout ["a", "b"] where
  sorted := by decide
  isPath := by decide
  apart := by decide

/-- An empty file `a`, and a file `b` that holds `x`. -/
def twoFiles : FileTree IsTarget where
  entries := [("a", .file []), ("b", .file [120])]
  isTree := isTree_of_files isLayout_ab rfl (by decide)

/-- A file `a` that holds what the inventory says of `b`. -/
def oneFile : FileTree IsTarget where
  entries := [("a", .file [70, 0, 98, 0, 120])]
  isTree := isTree_of_files (isLayout_ab.sublist (by decide)) rfl (by decide)

theorem inventory_ambiguous : ¬∀ tree tree' : FileTree IsTarget,
    inventoryOf tree.entries = inventoryOf tree'.entries → tree.entries = tree'.entries := by
  intro h
  exact absurd (h twoFiles oneFile (by decide)) (by decide)

theorem oneFile_not_plain : ¬IsPlain IsTarget oneFile.entries := by
  intro hplain
  obtain ⟨hunambiguous, -⟩ := (inventory_unambiguous_iff (.inr fun _ ↦ id) oneFile).mpr hplain
  exact absurd (hunambiguous twoFiles (by decide)) (by decide)

end HiveMind.Missions
