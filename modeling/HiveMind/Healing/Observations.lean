import HiveMind.Healing.Progress

/-!
# Observations

An observation is built from a document that gathers what adapters have seen. The records of a kind
come as a list or under their ids. They are copied, each has to have an id of its own, and they are
sorted by an id and the digest of the record.

The id they are sorted by need not be the one that is their own: a lease is sorted by its work item.
The digest tells apart what this leaves together.

* **`fromDocument_of_reordered`**: the order of the records in a document does not matter.
-/

open Raise

namespace HiveMind.Healing

/-! ## Records of a document -/

section Documents

variable [Builtins]

/-- The name of a type, as messages give it. -/
def typeName : Json → String
  | .null => "NoneType"
  | .bool _ => "bool"
  | .int _ => "int"
  | .float _ => "float"
  | .str _ => "str"
  | .arr _ => "list"
  | .obj _ => "dict"

/-- `record.setdefault(primary, str(key))`. -/
def setDefault (record : Record) (primary key : String) : Record :=
  if (record.get? primary).isSome then record else record.set primary (.str key)

/-- A record that comes under a key. -/
def keyedRecord (primary : String) (entry : String × Json) : Except Exc Record :=
  match entry.2 with
  | .obj ms => .ok (setDefault (Json.Dict.ofMembers ms) primary entry.1)
  | _ => .error (valueError (primary ++ " record must be a mapping"))

/-- A record of a list. It may be named by another of its fields. -/
def listedRecord (primary : String) (fallback : Option String) : Json → Except Exc Record
  | .obj ms =>
    let record := Json.Dict.ofMembers ms
    match fallback.bind record.get? with
    | some given => .ok (setDefault record primary (pyStr given))
    | none => .ok record
  | _ => .error (valueError (primary ++ " record must be a mapping"))

/-- The copies of the records, before they are checked. -/
def copies (primary : String) (fallback : Option String) : Json → Except Exc (List Record)
  | .obj ms => ms.mapM (keyedRecord primary)
  | .arr xs => xs.mapM (listedRecord primary fallback)
  | _ => .error (valueError (primary ++ " records must be a mapping or sequence"))

/-- The id of a record, as a text. -/
def idOf (primary : String) (record : Record) : String := pyStr (getD record primary .null)

def isText : Json → Bool
  | .str s => isRequired s
  | _ => false

/-- `_records`. -/
def recordsOf [Hash256] (value : Json) (primary : String) (fallback : Option String := none) :
    Except Exc (List Record) := do
  let records ← copies primary fallback value
  if records.any fun record ↦ !isText (getD record primary .null) then
    throw (valueError (primary ++ " is required"))
  if ¬(records.map (idOf primary)).Nodup then
    throw (valueError ("duplicate " ++ primary ++ " records are ambiguous"))
  sortedByKey records

/-! ## Observations of a document -/

/-- `value.get(name, default)`, where a value that is no mapping counts as an empty one. -/
def getIn (value : Json) (name : String) (default : Json) : Json :=
  match value with
  | .obj ms => (ms.lookup name).getD default
  | _ => default

/-- `mission_id`: the one of the document, of its mission, or the only one of its missions. -/
def missionIdOf (document : Record) : Json :=
  let given := getD document "mission_id" (getIn (getD document "mission" .null) "mission_id" .null)
  match given, getD document "missions" .null with
  | .null, .obj [(key, _)] => .str key
  | given, _ => given

/-- `mission_document`: what is said of the mission. -/
def missionDocumentOf (document : Record) : Except Exc Json :=
  let mission := match getD document "mission" .null with
    | .obj ms => .obj ms
    | _ => .obj []
  match missionIdOf document, getD document "missions" .null with
  | .null, _ => .ok mission
  | .str missionId, .obj ms => .ok ((ms.lookup missionId).getD mission)
  | .arr _, .obj _ => .error (typeError "unhashable type: 'list'")
  | .obj _, .obj _ => .error (typeError "unhashable type: 'dict'")
  | _, _ => .ok mission

/-- The status of the mission. The document of the mission is asked for it in any case. -/
def statusOf (document : Record) (missionDocument : Json) : Except Exc Json := do
  let default ← match missionDocument with
    | .str s => .ok (.str s)
    | .obj ms => .ok ((ms.lookup "status").getD (.str "CREATED"))
    | value => .error ⟨.attributeError, "'" ++ typeName value ++ "' object has no attribute 'get'"⟩
  return getD document "mission_status" (getD document "status" default)

/-- `no_progress_count`. -/
def countOf (document : Record) : Except Exc Int :=
  let progress := getD document "progress" (.obj [])
  match getD document "no_progress_count" (getIn progress "no_progress_count" (.int 0)) with
  | .int n =>
    if 0 ≤ n then .ok n
    else .error (valueError "no_progress_count must be a non-negative integer")
  | _ => .error (valueError "no_progress_count must be a non-negative integer")

/-- `progress_signature`. -/
def signatureOf (document : Record) : Except Exc (Option String) :=
  let progress := getD document "progress" (.obj [])
  match getD document "progress_signature" (getIn progress "signature" .null) with
  | .null => .ok none
  | .str signature => .ok (some signature)
  | _ => .error (valueError "progress_signature must be a string or null")

/-- `authority_scope`. -/
def authorityScopeOf (document : Record) : Except Exc (List String) :=
  match getD document "authority_scope" (.arr []) with
  | .arr xs => .ok (sortedSet (xs.map pyStr))
  | .obj ms => .ok (sortedSet (ms.map Prod.fst))
  | _ => .error (valueError "authority_scope must be an iterable of paths")

/-- A text that says something. -/
def requireText (value : Json) (message : String) : Except Exc String :=
  match value with
  | .str s => if isRequired s then .ok s else .error (valueError message)
  | _ => .error (valueError message)

/-- The records of one kind in a document. -/
def recordsIn [Hash256] (document : Record) (name primary : String)
    (fallback : Option String := none) : Except Exc (List Record) :=
  recordsOf (getD document name (.arr [])) primary fallback

/-- `ObservedState.from_document`. -/
def fromDocument [Hash256] (document : Record) : Except Exc ObservedState := do
  let missionDocument ← missionDocumentOf document
  let status ← statusOf document missionDocument
  let missionId ← requireText (missionIdOf document) "observed mission_id is required"
  let status ← requireText status "observed mission status is required"
  let work ← recordsIn document "work" "work_id"
  let leases ← recordsIn document "leases" "lease_id"
  let intents ← recordsIn document "intents" "intent_id"
  let workspaces ← recordsIn document "workspaces" "workspace_id"
  let providerFailures ← recordsIn document "provider_failures" "failure_id" (some "work_id")
  let verifications ← recordsIn document "verifications" "verification_id" (some "work_id")
  let count ← countOf document
  let signature ← signatureOf document
  let scope ← authorityScopeOf document
  return ⟨missionId, Builtins.upper status, work, leases, intents, workspaces, providerFailures,
    verifications, count, signature, scope⟩

end Documents

/-! ## Orders of records -/

section Orders

variable [Hash256]

/-- The order that records are sorted in, of pairs of a key and a record. -/
def KeyLe (p q : (String × String) × Record) : Prop :=
  p.1.1 < q.1.1 ∨ p.1.1 = q.1.1 ∧ p.1.2 ≤ q.1.2

instance : DecidableRel KeyLe := fun _ _ ↦ inferInstanceAs (Decidable (_ ∨ _))

omit [Hash256] in
theorem keyLe_iff {p q : (String × String) × Record} : KeyLe p q ↔ toLex p.1 ≤ toLex q.1 :=
  Prod.Lex.le_iff.symm

instance : Std.Total KeyLe where
  total p q := by
    rw [keyLe_iff, keyLe_iff]
    exact le_total _ _

instance : IsTrans ((String × String) × Record) KeyLe where
  trans p q r := by
    rw [keyLe_iff, keyLe_iff, keyLe_iff]
    exact le_trans

variable [Builtins]

theorem exists_record_of_keyed {rs : List Record} {keyed : List ((String × String) × Record)}
    (h : (rs.mapM fun record ↦ do
      let key ← recordKey record
      return (key, record)) = .ok keyed) :
    ∀ p ∈ keyed, p.2 ∈ rs ∧ recordKey p.2 = .ok p.1 := by
  intro p hp
  obtain ⟨r, hr, hpair⟩ := exists_of_forall₂ (mapM_eq_ok.mp h).flip hp
  obtain ⟨key, hkey, hp⟩ := bind_eq_ok.mp hpair
  rw [pure_eq_ok] at hp
  subst hp
  exact ⟨hr, hkey⟩

/-- Records are sorted in one way, in whatever order they come, if their keys tell them apart. -/
theorem sortedByKey_of_perm {rs rs' sorted : List Record} (h : sortedByKey rs = .ok sorted)
    (hperm : rs.Perm rs')
    (hapart : ∀ r ∈ rs, ∀ r' ∈ rs, ∀ key, recordKey r = .ok key → recordKey r' = .ok key → r = r') :
    sortedByKey rs' = .ok sorted := by
  rw [sortedByKey] at h ⊢
  obtain ⟨keyed, hkeyed, h⟩ := bind_eq_ok.mp h
  obtain ⟨keyed', hkeyed', hperm'⟩ := exists_mapM_of_perm hkeyed hperm
  refine bind_eq_ok.mpr ⟨keyed', hkeyed', ?_⟩
  rw [pure_eq_ok] at h ⊢
  have hsame : keyed'.insertionSort KeyLe = keyed.insertionSort KeyLe := by
    have hsorts := (List.perm_insertionSort KeyLe keyed').trans
      (hperm'.symm.trans (List.perm_insertionSort KeyLe keyed).symm)
    refine List.Perm.eq_of_pairwise ?_ (List.pairwise_insertionSort KeyLe keyed')
      (List.pairwise_insertionSort KeyLe keyed) hsorts
    intro p q hp hq hpq hqp
    have hkeys : p.1 = q.1 := toLex_inj.mp (le_antisymm (keyLe_iff.mp hpq) (keyLe_iff.mp hqp))
    have hp' := hperm'.mem_iff.mpr ((List.perm_insertionSort KeyLe keyed').mem_iff.mp hp)
    have hq' := (List.perm_insertionSort KeyLe keyed).mem_iff.mp hq
    obtain ⟨hpr, hpkey⟩ := exists_record_of_keyed hkeyed p hp'
    obtain ⟨hqr, hqkey⟩ := exists_record_of_keyed hkeyed q hq'
    exact Prod.ext hkeys (hapart _ hpr _ hqr _ hpkey (hkeys ▸ hqkey))
  rw [h]
  exact congrArg (List.map Prod.snd) hsame.symm

omit [Hash256] [Builtins] in
theorem ofJsonItems_eq_map (ms : List (String × Json)) :
    PyValue.ofJsonItems ms = ms.map fun m ↦ (m.1, PyValue.ofJson m.2) := by
  induction ms with
  | nil => rfl
  | cons m ms ih => rw [PyValue.ofJsonItems, ih, List.map_cons]

omit [Hash256] [Builtins] in
theorem lookup_ofJsonItems {ms : List (String × Json)} {name : String} {value : Json}
    (h : ms.lookup name = some value) :
    (PyValue.ofJsonItems ms).lookup name = some (PyValue.ofJson value) := by
  induction ms with
  | nil => exact nomatch h
  | cons m ms ih =>
    rw [List.lookup_cons] at h
    rw [PyValue.ofJsonItems, List.lookup_cons]
    by_cases hname : (name == m.1) = true
    · rw [hname] at h ⊢
      exact congrArg (some ∘ PyValue.ofJson) (Option.some.inj h)
    · rw [eq_false_of_ne_true hname] at h ⊢
      exact ih h

omit [Hash256] [Builtins] in
/-- Records that are written in the same way have the same texts in them. -/
theorem eq_of_plain_text {r r' : Record} {name s s' : String} {j : Json}
    (h : (PyValue.dict (PyValue.ofJsonItems r.members)).plain = .ok j)
    (h' : (PyValue.dict (PyValue.ofJsonItems r'.members)).plain = .ok j)
    (hs : r.get? name = some (.str s)) (hs' : r'.get? name = some (.str s')) : s = s' := by
  have hnodup : ∀ d : Record, ((PyValue.ofJsonItems d.members).map Prod.fst).Nodup := by
    intro d
    rw [ofJsonItems_eq_map, List.map_map]
    exact d.ordered.imp fun hlt ↦ hlt.ne
  obtain ⟨k, hk, hk'⟩ := PyValue.plain_member_eq name h h' (hnodup r) (hnodup r')
    (lookup_ofJsonItems hs) (lookup_ofJsonItems hs')
  have hj : Json.str s = k := Except.ok.inj hk
  have hj' : Json.str s' = k := Except.ok.inj hk'
  exact Json.str.inj (hj.trans hj'.symm)

/-- The records that sorting returns are those it was given. -/
theorem perm_of_sortedByKey {rs sorted : List Record} (h : sortedByKey rs = .ok sorted) :
    sorted.Perm rs := by
  rw [sortedByKey] at h
  obtain ⟨keyed, hkeyed, h⟩ := bind_eq_ok.mp h
  rw [pure_eq_ok] at h
  have hrecords : keyed.map Prod.snd = rs := by
    refine List.forall₂_eq_eq_eq ▸ List.forall₂_map_left_iff.mpr ((mapM_eq_ok.mp hkeyed).flip.imp ?_)
    intro p r hpair
    obtain ⟨key, -, hp⟩ := bind_eq_ok.mp hpair
    rw [pure_eq_ok] at hp
    rw [hp]
  rw [h, ← hrecords]
  exact (List.perm_insertionSort KeyLe keyed).map Prod.snd

omit [Hash256] [Builtins] in
theorem exists_text_of_isText {record : Record} {name : String}
    (h : isText (getD record name .null) = true) :
    ∃ s, record.get? name = some (.str s) ∧ isRequired s = true := by
  rw [getD] at h
  cases hget : record.get? name with
  | none =>
    rw [hget] at h
    exact absurd h (by decide)
  | some value =>
    rw [hget, Option.getD_some] at h
    cases value with
    | str s => exact ⟨s, rfl, h⟩
    | _ => exact absurd h (by simp [isText])

/-- The records have ids of their own under this name. -/
structure Identified (primary : String) (records : List Record) : Prop where
  texts : ∀ record ∈ records, ∃ s, record.get? primary = some (.str s) ∧ isRequired s = true
  nodup : (records.map (idOf primary)).Nodup

theorem recordsOf_eq_ok {value : Json} {primary : String} {fallback : Option String}
    {records : List Record} (h : recordsOf value primary fallback = .ok records) :
    ∃ given, copies primary fallback value = .ok given ∧ Identified primary given ∧
      sortedByKey given = .ok records := by
  rw [recordsOf] at h
  obtain ⟨given, hgiven, h⟩ := bind_eq_ok.mp h
  obtain ⟨htexts, h⟩ := guard_eq_ok.mp h
  obtain ⟨hnodup, h⟩ := guard_eq_ok.mp h
  refine ⟨given, hgiven, ⟨?_, not_not.mp hnodup⟩, h⟩
  intro record hrecord
  refine exists_text_of_isText ?_
  by_contra hnot
  exact htexts (List.any_eq_true.mpr ⟨record, hrecord, by simpa using hnot⟩)

omit [Hash256] in
theorem Identified.perm {primary : String} {records records' : List Record}
    (h : Identified primary records) (hperm : records.Perm records') :
    Identified primary records' := by
  refine ⟨fun record hrecord ↦ h.texts record (hperm.mem_iff.mpr hrecord), ?_⟩
  exact (hperm.map _).nodup_iff.mp h.nodup

/-- Records are kept apart by their ids, unless two of them share a digest. -/
theorem Identified.eq_of_key {primary : String} {records : List Record}
    (h : Identified primary records)
    (hapart : ToldApart (records.map fun r ↦ PyValue.ofJsonItems r.members)) :
    ∀ r ∈ records, ∀ r' ∈ records, ∀ key, recordKey r = .ok key → recordKey r' = .ok key →
      r = r' := by
  intro r hr r' hr' key hkey hkey'
  obtain ⟨digest, hdigest, hpair⟩ := bind_eq_ok.mp hkey
  obtain ⟨digest', hdigest', hpair'⟩ := bind_eq_ok.mp hkey'
  rw [pure_eq_ok] at hpair hpair'
  have hsame : digest = digest' := congrArg Prod.snd (hpair.symm.trans hpair')
  have hplain := hapart _ (List.mem_map_of_mem hr) _ (List.mem_map_of_mem hr') digest hdigest
    (hsame ▸ hdigest')
  obtain ⟨j, hj⟩ := exists_plain hdigest
  obtain ⟨s, hs, -⟩ := h.texts r hr
  obtain ⟨s', hs', -⟩ := h.texts r' hr'
  have htexts : s = s' := eq_of_plain_text hj (hplain ▸ hj) hs hs'
  refine List.inj_on_of_nodup_map h.nodup hr hr' ?_
  rw [idOf, idOf, getD, getD, hs, hs', htexts]

end Orders

/-! ## Reordered documents -/

/-- The same records, as a list or under keys, in another order. -/
inductive SameRecords : Json → Json → Prop
  | same (value : Json) : SameRecords value value
  | listed {xs ys : List Json} (perm : xs.Perm ys) : SameRecords (.arr xs) (.arr ys)
  | keyed {ms ns : List (String × Json)} (perm : ms.Perm ns) : SameRecords (.obj ms) (.obj ns)

/-- The fields of a document that hold records. -/
def recordNames : List String :=
  ["work", "leases", "intents", "workspaces", "provider_failures", "verifications"]

/-- The documents differ at most in the order of their records. -/
structure Reordered (document document' : Record) : Prop where
  records : ∀ name ∈ recordNames, Option.Rel SameRecords (document.get? name) (document'.get? name)
  rest : ∀ name ∉ recordNames, document'.get? name = document.get? name

namespace ObservedState

/-- The records of all kinds. -/
def allRecords (state : ObservedState) : List Record :=
  state.work ++ state.leases ++ state.intents ++ state.workspaces ++ state.providerFailures ++
    state.verifications

theorem mem_allRecords {state : ObservedState} {record : Record} :
    record ∈ state.allRecords ↔ record ∈ state.work ∨ record ∈ state.leases ∨
      record ∈ state.intents ∨ record ∈ state.workspaces ∨ record ∈ state.providerFailures ∨
        record ∈ state.verifications := by
  simp only [allRecords, List.mem_append, or_assoc]

/-- The documents that are digested to sort the records. -/
def recordDocuments (state : ObservedState) : List (List (String × PyValue)) :=
  state.allRecords.map fun record ↦ PyValue.ofJsonItems record.members

end ObservedState

section Reorderings

variable [Hash256] [Builtins] {document document' : Record} {state : ObservedState}

/-- What an observation holds is what its document says. -/
structure Observes (document : Record) (state : ObservedState) : Prop where
  work : recordsIn document "work" "work_id" = .ok state.work
  leases : recordsIn document "leases" "lease_id" = .ok state.leases
  intents : recordsIn document "intents" "intent_id" = .ok state.intents
  workspaces : recordsIn document "workspaces" "workspace_id" = .ok state.workspaces
  failures : recordsIn document "provider_failures" "failure_id" (some "work_id") =
    .ok state.providerFailures
  verifications : recordsIn document "verifications" "verification_id" (some "work_id") =
    .ok state.verifications
  missionId : requireText (missionIdOf document) "observed mission_id is required" =
    .ok state.missionId
  status : ∃ status, (missionDocumentOf document >>= statusOf document) = .ok status ∧
    requireText status "observed mission status is required" >>=
      (fun status ↦ .ok (Builtins.upper status)) = .ok state.missionStatus
  count : countOf document = .ok state.noProgressCount
  signature : signatureOf document = .ok state.progressSignature
  scope : authorityScopeOf document = .ok state.authorityScope

theorem fromDocument_eq_ok : fromDocument document = .ok state ↔ Observes document state := by
  rw [fromDocument]
  constructor
  · intro h
    obtain ⟨missionDocument, hmissionDocument, h⟩ := bind_eq_ok.mp h
    obtain ⟨status, hstatusOf, h⟩ := bind_eq_ok.mp h
    obtain ⟨missionId, hmissionId, h⟩ := bind_eq_ok.mp h
    obtain ⟨status', hstatus', h⟩ := bind_eq_ok.mp h
    obtain ⟨work, hwork, h⟩ := bind_eq_ok.mp h
    obtain ⟨leases, hleases, h⟩ := bind_eq_ok.mp h
    obtain ⟨intents, hintents, h⟩ := bind_eq_ok.mp h
    obtain ⟨workspaces, hworkspaces, h⟩ := bind_eq_ok.mp h
    obtain ⟨failures, hfailures, h⟩ := bind_eq_ok.mp h
    obtain ⟨verifications, hverifications, h⟩ := bind_eq_ok.mp h
    obtain ⟨count, hcount, h⟩ := bind_eq_ok.mp h
    obtain ⟨signature, hsignature, h⟩ := bind_eq_ok.mp h
    obtain ⟨scope, hscope, h⟩ := bind_eq_ok.mp h
    rw [pure_eq_ok] at h
    subst h
    exact ⟨hwork, hleases, hintents, hworkspaces, hfailures, hverifications, hmissionId,
      ⟨status, bind_eq_ok.mpr ⟨missionDocument, hmissionDocument, hstatusOf⟩,
        bind_eq_ok.mpr ⟨status', hstatus', rfl⟩⟩, hcount, hsignature, hscope⟩
  · rintro ⟨hwork, hleases, hintents, hworkspaces, hfailures, hverifications, hmissionId,
      ⟨status, hstatusOf, hupper⟩, hcount, hsignature, hscope⟩
    obtain ⟨missionDocument, hmissionDocument, hstatusOf⟩ := bind_eq_ok.mp hstatusOf
    obtain ⟨status', hstatus', hupper⟩ := bind_eq_ok.mp hupper
    rw [hmissionDocument, ok_bind, hstatusOf, ok_bind, hmissionId, ok_bind, hstatus', ok_bind,
      hwork, ok_bind, hleases, ok_bind, hintents, ok_bind, hworkspaces, ok_bind, hfailures, ok_bind,
      hverifications, ok_bind, hcount, ok_bind, hsignature, ok_bind, hscope, ok_bind,
      Except.ok.inj hupper]
    rfl

omit [Hash256] in
theorem exists_copies_of_same {value value' : Json} {primary : String} {fallback : Option String}
    {given : List Record} (h : copies primary fallback value = .ok given)
    (hsame : SameRecords value value') :
    ∃ given', copies primary fallback value' = .ok given' ∧ given.Perm given' := by
  cases hsame with
  | same => exact ⟨given, h, .refl given⟩
  | listed perm => exact exists_mapM_of_perm h perm
  | keyed perm => exact exists_mapM_of_perm h perm

theorem recordsOf_of_same {value value' : Json} {primary : String} {fallback : Option String}
    {records : List Record} (h : recordsOf value primary fallback = .ok records)
    (hsame : SameRecords value value')
    (hapart : ToldApart (records.map fun record ↦ PyValue.ofJsonItems record.members)) :
    recordsOf value' primary fallback = .ok records := by
  obtain ⟨given, hgiven, hids, hsorted⟩ := recordsOf_eq_ok h
  obtain ⟨given', hgiven', hperm⟩ := exists_copies_of_same hgiven hsame
  have hids' : Identified primary given' := hids.perm hperm
  have hapart' : ToldApart (given.map fun record ↦ PyValue.ofJsonItems record.members) := by
    refine hapart.mono ?_
    exact ((perm_of_sortedByKey hsorted).map _).symm.subset
  have hsorted' := sortedByKey_of_perm hsorted hperm (hids.eq_of_key hapart')
  rw [recordsOf]
  refine bind_eq_ok.mpr ⟨given', hgiven', guard_eq_ok.mpr ⟨?_, guard_eq_ok.mpr ⟨?_, hsorted'⟩⟩⟩
  · rw [List.any_eq_true]
    rintro ⟨record, hrecord, hnot⟩
    obtain ⟨s, hs, hrequired⟩ := hids'.texts record hrecord
    rw [getD, hs, Option.getD_some, isText, hrequired] at hnot
    exact absurd hnot (by decide)
  · exact not_not.mpr hids'.nodup

omit [Hash256] [Builtins] in
theorem Reordered.sameRecords (h : Reordered document document') {name : String}
    (hname : name ∈ recordNames) (default : Json) :
    SameRecords (getD document name default) (getD document' name default) := by
  have hrel := h.records name hname
  rw [getD, getD]
  generalize document.get? name = value, document'.get? name = value' at hrel ⊢
  cases hrel with
  | some hsame => exact hsame
  | none => exact .same default

omit [Hash256] [Builtins] in
theorem Reordered.getD_eq (h : Reordered document document') {name : String}
    (hname : name ∉ recordNames) (default : Json) :
    getD document' name default = getD document name default := by
  rw [getD, getD, h.rest name hname]

/-- **The order of the records in a document does not matter, unless two of them share a digest.** -/
theorem fromDocument_of_reordered (h : fromDocument document = .ok state)
    (hreordered : Reordered document document') (hapart : ToldApart state.recordDocuments) :
    fromDocument document' = .ok state := by
  have hget : ∀ name ∉ recordNames, ∀ default,
      getD document' name default = getD document name default :=
    fun name hname ↦ hreordered.getD_eq hname
  have hmission : missionDocumentOf document' = missionDocumentOf document := by
    simp only [missionDocumentOf, missionIdOf, hget "mission" (by decide),
      hget "mission_id" (by decide), hget "missions" (by decide)]
  have hid : missionIdOf document' = missionIdOf document := by
    simp only [missionIdOf, hget "mission" (by decide), hget "mission_id" (by decide),
      hget "missions" (by decide)]
  have hstatus : statusOf document' = statusOf document := by
    funext missionDocument
    simp only [statusOf, hget "mission_status" (by decide), hget "status" (by decide)]
  have hcount : countOf document' = countOf document := by
    simp only [countOf, hget "progress" (by decide), hget "no_progress_count" (by decide)]
  have hsignature : signatureOf document' = signatureOf document := by
    simp only [signatureOf, hget "progress" (by decide), hget "progress_signature" (by decide)]
  have hscope : authorityScopeOf document' = authorityScopeOf document := by
    simp only [authorityScopeOf, hget "authority_scope" (by decide)]
  have hrecords : ∀ {name primary : String} {fallback : Option String} {records : List Record},
      name ∈ recordNames → records ⊆ state.allRecords →
      recordsIn document name primary fallback = .ok records →
      recordsIn document' name primary fallback = .ok records := by
    intro name primary fallback records hname hsub hrecords
    exact recordsOf_of_same hrecords (hreordered.sameRecords hname _)
      (hapart.mono (List.map_subset _ hsub))
  rw [fromDocument_eq_ok] at h ⊢
  refine ⟨hrecords (by decide) ?_ h.work, hrecords (by decide) ?_ h.leases,
    hrecords (by decide) ?_ h.intents, hrecords (by decide) ?_ h.workspaces,
    hrecords (by decide) ?_ h.failures, hrecords (by decide) ?_ h.verifications, ?_, ?_, ?_, ?_, ?_⟩
  · exact fun r hr ↦ ObservedState.mem_allRecords.mpr (.inl hr)
  · exact fun r hr ↦ ObservedState.mem_allRecords.mpr (.inr (.inl hr))
  · exact fun r hr ↦ ObservedState.mem_allRecords.mpr (.inr (.inr (.inl hr)))
  · exact fun r hr ↦ ObservedState.mem_allRecords.mpr (.inr (.inr (.inr (.inl hr))))
  · exact fun r hr ↦ ObservedState.mem_allRecords.mpr (.inr (.inr (.inr (.inr (.inl hr)))))
  · exact fun r hr ↦ ObservedState.mem_allRecords.mpr (.inr (.inr (.inr (.inr (.inr hr)))))
  · rw [hid, h.missionId]
  · rw [hmission, hstatus]
    exact h.status
  · rw [hcount, h.count]
  · rw [hsignature, h.signature]
  · rw [hscope, h.scope]

/-- A reconciliation does not tell reordered documents apart. -/
theorem reconcile_of_reordered (h : fromDocument document = .ok state)
    (hreordered : Reordered document document') (hapart : ToldApart state.recordDocuments) :
    ∃ state', fromDocument document' = .ok state' ∧ state'.digest = state.digest ∧
      ∀ policy now, reconcile policy state' now = reconcile policy state now :=
  ⟨state, fromDocument_of_reordered h hreordered hapart, rfl, fun _ _ ↦ rfl⟩

end Reorderings

/-! ### A document with two work items -/

def workItem (workId : String) : Record := Json.Dict.ofMembers [("work_id", .str workId)]

/-- A document that lists work items. -/
def workDocument (workIds : List String) : Record :=
  Json.Dict.ofMembers [("mission_id", .str "m"),
    ("work", .arr (workIds.map fun workId ↦ (workItem workId).toJson))]

theorem get?_workDocument (workIds : List String) (name : String) :
    (workDocument workIds).get? name =
      if name = "mission_id" then some (.str "m")
      else if name = "work" then some (.arr (workIds.map fun workId ↦ (workItem workId).toJson))
      else none := by
  rw [workDocument, Json.Dict.get?_ofMembers (by simp), Json.lookup_cons, Json.lookup_cons]
  rfl

theorem reordered_workDocument :
    Reordered (workDocument ["a", "b"]) (workDocument ["b", "a"]) := by
  constructor
  · intro name hname
    have hmission : name ≠ "mission_id" := by
      rintro rfl
      exact absurd hname (by decide)
    rw [get?_workDocument, get?_workDocument, if_neg hmission, if_neg hmission]
    by_cases hwork : name = "work"
    · rw [if_pos hwork, if_pos hwork]
      exact .some (.listed (List.Perm.swap _ _ _))
    · rw [if_neg hwork, if_neg hwork]
      exact .none
  · intro name hname
    have hwork : name ≠ "work" := by
      rintro rfl
      exact hname (by decide)
    rw [get?_workDocument, get?_workDocument, if_neg hwork, if_neg hwork]

theorem exists_workState [Hash256] [Builtins] :
    ∃ state, fromDocument (workDocument ["a", "b"]) = .ok state ∧
      state.allRecords.Perm [workItem "a", workItem "b"] := by
  obtain ⟨state, hstate⟩ : ∃ state, fromDocument (workDocument ["a", "b"]) = .ok state := ⟨_, rfl⟩
  refine ⟨state, hstate, ?_⟩
  have hobserves := fromDocument_eq_ok.mp hstate
  have hnone : ∀ {name primary : String} {fallback : Option String} {records : List Record},
      recordsIn (workDocument ["a", "b"]) name primary fallback = .ok records →
      name ≠ "mission_id" → name ≠ "work" → records = [] := by
    intro name primary fallback records hrecords hmission hwork
    rw [recordsIn, getD, get?_workDocument, if_neg hmission, if_neg hwork] at hrecords
    exact (Except.ok.inj hrecords).symm
  have hwork : state.work.Perm [workItem "a", workItem "b"] := by
    obtain ⟨given, hgiven, -, hsorted⟩ := recordsOf_eq_ok hobserves.work
    have hitems : [workItem "a", workItem "b"] = given := Except.ok.inj hgiven
    rw [hitems]
    exact perm_of_sortedByKey hsorted
  rw [ObservedState.allRecords, hnone hobserves.leases (by decide) (by decide),
    hnone hobserves.intents (by decide) (by decide),
    hnone hobserves.workspaces (by decide) (by decide),
    hnone hobserves.failures (by decide) (by decide),
    hnone hobserves.verifications (by decide) (by decide)]
  simpa using hwork

set_option maxRecDepth 1000

theorem digest_workItems : [jsonDigest (workItem "a").toJson, jsonDigest (workItem "b").toJson].Nodup := by
  decide

local instance workBuiltins : Builtins := asciiBuiltins

theorem reconcile_workDocument : ∃ state state',
    fromDocument (workDocument ["a", "b"]) = .ok state ∧
    fromDocument (workDocument ["b", "a"]) = .ok state' ∧ state'.digest = state.digest ∧
      ∀ policy now, reconcile policy state' now = reconcile policy state now := by
  obtain ⟨state, hstate, hperm⟩ := exists_workState
  have hapart : ToldApart state.recordDocuments := by
    apply toldApart_of_nodup
    rw [ObservedState.recordDocuments, List.map_map]
    refine (hperm.map _).nodup_iff.mpr ?_
    have hdigests := List.Nodup.map (f := (.ok : String → Except Exc String))
      (fun _ _ ↦ Except.ok.inj) digest_workItems
    exact hdigests
  obtain ⟨state', hstate', hsame⟩ := reconcile_of_reordered hstate reordered_workDocument hapart
  exact ⟨state, state', hstate, hstate', hsame⟩

end HiveMind.Healing
