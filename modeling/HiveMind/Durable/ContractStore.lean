import HiveMind.Kernel.Contracts
import HiveMind.Kernel.Values
import HiveMind.Lib.Dicts

/-!
# Small durable stores

A store keeps a document for each key in memory and writes all of them to its path with every
change. Opened again, it reads the documents that it wrote: the keys may come in another order, but
every key has its document (`ContractStore.Kept.reopen`).

The text is written to a temporary file that then takes the place of the old one. There is no state
in between, and so the file is one value.
-/

namespace HiveMind.Durable

/-- `ContractStore`: the text at the path, and `_records`. What `decode` makes of a document is left
to those who read one. -/
structure ContractStore where
  file : Option String
  records : List (String × Json)

namespace ContractStore

/-- `ContractStore.__init__`. -/
def openFile : Option String → Except Exc ContractStore
  | none => .ok ⟨none, []⟩
  | some text =>
    match Json.loads text with
    | none => .error (valueError "Expecting value")
    | some (.obj members) =>
      match members.lookup "records" with
      | none => .error (keyError "records")
      | some (.obj records) => .ok ⟨some text, records⟩
      | some _ => .error (valueError "invalid contract store")
    | some _ => .error (valueError "invalid contract store")

/-- The text that `_flush` writes. -/
def payload (records : List (String × Json)) : String :=
  jsonBytes (Json.mkObj [("version", .int 1), ("records", Json.mkObj records)])

/-- `_flush`. -/
def flush (store : ContractStore) : ContractStore :=
  { store with file := some (payload store.records) }

/-- `ContractStore.put`, of a document that is plain already. -/
def put (store : ContractStore) (key : String) (document : Json) : Except Exc ContractStore :=
  if key = "" then .error (valueError "store key is required")
  else .ok { store with records := Dicts.setItem key document store.records }.flush

/-- `ContractStore.get`. -/
def get {α : Type} (decode : List (String × Json) → Except Exc α) (store : ContractStore)
    (key : String) : Except Exc (Option α) :=
  match store.records.lookup key with
  | none | some .null => .ok none
  | some (.obj members) => (decode members).map some
  | some _ => .error (typeError "object is not a mapping")

/-! ## What is kept -/

/-- The file, if there is one, holds the records. -/
structure Kept (store : ContractStore) : Prop where
  nodup : (store.records.map Prod.fst).Nodup
  sorted : ∀ item ∈ store.records, item.2.Sorted
  file : store.file = some (payload store.records) ∨ store.file = none ∧ store.records = []

theorem kept_empty : Kept ⟨none, []⟩ where
  nodup := List.nodup_nil
  sorted _ h := nomatch h
  file := .inr ⟨rfl, rfl⟩

variable {store store' : ContractStore} {key : String} {document : Json}

theorem put_eq_ok (h : key ≠ "") : store.put key document =
    .ok { store with records := Dicts.setItem key document store.records }.flush := by
  rw [put, if_neg h]

theorem lookup_put (h : store.put key document = .ok store') (k : String) :
    store'.records.lookup k = if k = key then some document else store.records.lookup k := by
  rw [put] at h
  split at h
  · exact nomatch h
  · obtain rfl := Except.ok.inj h
    exact Dicts.lookup_setItem key k document store.records

theorem Kept.put (hkept : Kept store) (hdocument : document.Sorted)
    (h : store.put key document = .ok store') : Kept store' := by
  rw [ContractStore.put] at h
  split at h
  · exact nomatch h
  obtain rfl := Except.ok.inj h
  refine ⟨Dicts.nodup_setItem hkept.nodup, ?_, .inl rfl⟩
  rintro ⟨k, value⟩ hitem
  rw [show _ ∈ (flush _).records ↔ _ from Dicts.mem_setItem hkept.nodup] at hitem
  split at hitem
  · exact hitem ▸ hdocument
  · exact hkept.sorted _ hitem

/-- The text of some records is read as the same records in the order of their keys. -/
theorem openFile_payload {records : List (String × Json)} (h : ∀ item ∈ records, item.2.Sorted) :
    openFile (some (payload records)) =
      .ok ⟨some (payload records), (Json.Dict.ofMembers records).members⟩ := by
  have hrecords := Json.sorted_mkObj h
  have hsorted : (Json.mkObj [("version", .int 1), ("records", Json.mkObj records)]).Sorted := by
    refine Json.sorted_mkObj fun item hitem ↦ ?_
    rcases List.mem_cons.mp hitem with rfl | hitem
    · trivial
    · exact (List.mem_singleton.mp hitem) ▸ hrecords
  have hlookup : (Json.Dict.ofMembers
      [("version", .int 1), ("records", Json.mkObj records)]).members.lookup "records" =
      some (Json.mkObj records) :=
    Json.Dict.get?_ofMembers (by simp) "records"
  rw [← Json.Dict.toJson_ofMembers] at hsorted
  rw [openFile, payload, jsonBytes, ← Json.Dict.toJson_ofMembers, Json.loads_dumps hsorted]
  simp only [Json.Dict.toJson, hlookup]
  rfl

/-- Opened again, a store has the records that it had. -/
theorem Kept.reopen (h : Kept store) : ∃ store', openFile store.file = .ok store' ∧ Kept store' ∧
    ∀ k, store'.records.lookup k = store.records.lookup k := by
  rcases h.file with hfile | ⟨hfile, hrecords⟩
  · let records := (Json.Dict.ofMembers store.records).members
    have hordered := (Json.Dict.ofMembers store.records).ordered
    have hnodup : (records.map Prod.fst).Nodup := hordered.imp fun hlt ↦ ne_of_lt hlt
    have hsorted : ∀ item ∈ records, item.2.Sorted :=
      Json.sortedMembers_iff.mp (Json.sorted_mkObj h.sorted).2
    -- the members of an object that is in order make the same object again
    have hpayload : payload store.records = payload records := by
      have hsame := congrArg Json.Dict.toJson
        (Json.Dict.ofMembers_members (Json.Dict.ofMembers store.records))
      rw [Json.Dict.toJson_ofMembers, Json.Dict.toJson_ofMembers] at hsame
      unfold payload
      rw [hsame]
    refine ⟨⟨some (payload store.records), records⟩, ?_, ⟨hnodup, hsorted, .inl ?_⟩, ?_⟩
    · rw [hfile, openFile_payload h.sorted]
    · exact congrArg some hpayload
    · exact fun k ↦ Json.Dict.get?_ofMembers h.nodup k
  · refine ⟨⟨none, []⟩, ?_, kept_empty, fun k ↦ hrecords ▸ rfl⟩
    rw [hfile]
    rfl

end ContractStore

end HiveMind.Durable
