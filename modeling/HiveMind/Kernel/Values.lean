import HiveMind.Kernel.Canonical

/-!
# Values that were read back

What is written as canonical JSON and read back is a value again: a dict for an object, a list for
an array. A tuple comes back as a list and a dict with its items in name order, and after that
nothing changes any more: a value that was read back has the plain form of the value that was
written.
-/

namespace HiveMind.PyValue

mutual

/-- `json.loads`, of the text of a plain value. -/
def ofJson : Json → PyValue
  | .null => .none
  | .bool b => .bool b
  | .int n => .int n
  | .float x => .float x
  | .str s => .str s
  | .arr xs => .list (ofJsonList xs)
  | .obj ms => .dict (ofJsonItems ms)

def ofJsonList : List Json → List PyValue
  | [] => []
  | x :: xs => ofJson x :: ofJsonList xs

def ofJsonItems : List (String × Json) → List (String × PyValue)
  | [] => []
  | (k, x) :: ms => (k, ofJson x) :: ofJsonItems ms

end

theorem plainList_ofJsonList {xs : List Json} (h : ∀ x ∈ xs, plain (ofJson x) = .ok x) :
    plainList (ofJsonList xs) = .ok xs := by
  induction xs with
  | nil => rw [ofJsonList, plainList]
  | cons x xs ih =>
    rw [ofJsonList, plainList, h x List.mem_cons_self]
    simp only [ih fun y hy ↦ h y (List.mem_cons_of_mem x hy)]
    rfl

theorem plainItems_ofJsonItems {ms : List (String × Json)}
    (h : ∀ m ∈ ms, plain (ofJson m.2) = .ok m.2) : plainItems (ofJsonItems ms) = .ok ms := by
  induction ms with
  | nil => rw [ofJsonItems, plainItems]
  | cons m ms ih =>
    obtain ⟨k, x⟩ := m
    rw [ofJsonItems, plainItems, h (k, x) List.mem_cons_self]
    simp only [ih fun n hn ↦ h n (List.mem_cons_of_mem _ hn)]
    rfl

/-- The members of `mkObj` are members that it was given. -/
theorem mem_ofMembers {ms : List (String × Json)} {m : String × Json}
    (h : m ∈ (Json.Dict.ofMembers ms).members) : m ∈ ms := by
  have hfold : ∀ (ms acc : List (String × Json)),
      m ∈ ms.foldl (fun acc n ↦ Json.insertMember n.1 n.2 acc) acc → m ∈ acc ∨ m ∈ ms := by
    intro ms
    induction ms with
    | nil => exact fun _ h ↦ .inl h
    | cons n ms ih =>
      intro acc h
      rcases ih _ h with h | h
      · rcases Json.mem_insertMember h with rfl | h
        · exact .inr List.mem_cons_self
        · exact .inl h
      · exact .inr (List.mem_cons_of_mem n h)
  rcases hfold ms [] h with h | h
  · exact absurd h List.not_mem_nil
  · exact h

theorem plain_ofJson_mkObj {ms : List (String × Json)}
    (h : ∀ m ∈ ms, plain (ofJson m.2) = .ok m.2) :
    plain (ofJson (Json.mkObj ms)) = .ok (Json.mkObj ms) := by
  have hdict : Json.mkObj ms = .obj (Json.Dict.ofMembers ms).members := rfl
  have hitems := @plainItems_ofJsonItems (Json.Dict.ofMembers ms).members
    fun m hm ↦ h m (mem_ofMembers hm)
  rw [hdict, ofJson, plain, hitems, Except.map]
  exact congrArg Except.ok (Json.mkObj_of_pairwise (Json.Dict.ofMembers ms).ordered)

mutual

/-- A value that was read back has the plain form of the value that was written. -/
theorem plain_ofJson : ∀ {v : PyValue} {j : Json}, plain v = .ok j → plain (ofJson j) = .ok j
  | .none, j, h | .bool _, j, h | .float _, j, h | .str _, j, h => by
    rw [plain] at h
    obtain rfl := Except.ok.inj h
    rw [ofJson, plain]
  | .int n, j, h => by
    have hn := h
    rw [plain] at h
    split at h
    · obtain rfl := Except.ok.inj h
      rw [ofJson, hn]
    · exact absurd h (by simp)
  | .list xs, j, h => by
    rw [plain] at h
    obtain ⟨ys, hys, rfl⟩ := map_eq_ok h
    rw [ofJson, plain, plainList_ofJsonList (plain_ofJson_of_mem_list hys)]
    rfl
  | .tuple xs, j, h => by
    rw [plain] at h
    obtain ⟨ys, hys, rfl⟩ := map_eq_ok h
    rw [ofJson, plain, plainList_ofJsonList (plain_ofJson_of_mem_list hys)]
    rfl
  | .dict items, j, h => by
    rw [plain] at h
    obtain ⟨ms, hms, rfl⟩ := map_eq_ok h
    exact plain_ofJson_mkObj (plain_ofJson_of_mem_items hms)
  | .unserializable, j, h => by
    rw [plain] at h
    exact absurd h (by simp)

theorem plain_ofJson_of_mem_list : ∀ {xs : List PyValue} {ys : List Json},
    plainList xs = .ok ys → ∀ y ∈ ys, plain (ofJson y) = .ok y
  | [], ys, h => by
    rw [plainList] at h
    obtain rfl := Except.ok.inj h
    exact fun y hy ↦ absurd hy List.not_mem_nil
  | x :: xs, ys, h => by
    rw [plainList] at h
    split at h
    · exact absurd h (by simp)
    · next j hj =>
      obtain ⟨zs, hzs, rfl⟩ := map_eq_ok h
      intro y hy
      rcases List.mem_cons.mp hy with rfl | hy
      · exact plain_ofJson hj
      · exact plain_ofJson_of_mem_list hzs y hy

theorem plain_ofJson_of_mem_items : ∀ {items : List (String × PyValue)}
    {ms : List (String × Json)}, plainItems items = .ok ms →
    ∀ m ∈ ms, plain (ofJson m.2) = .ok m.2
  | [], ms, h => by
    rw [plainItems] at h
    obtain rfl := Except.ok.inj h
    exact fun m hm ↦ absurd hm List.not_mem_nil
  | (k, x) :: items, ms, h => by
    rw [plainItems] at h
    split at h
    · exact absurd h (by simp)
    · next j hj =>
      obtain ⟨ns, hns, rfl⟩ := map_eq_ok h
      intro m hm
      rcases List.mem_cons.mp hm with rfl | hm
      · exact plain_ofJson hj
      · exact plain_ofJson_of_mem_items hns m hm

end

/-! ## Mappings -/

/-- `json.loads(canonical_bytes(dict(value)))`, for a mapping: a dict, if there is a canonical
text. -/
def reread (items : List (String × PyValue)) : Except Exc Json.Dict :=
  (plainItems items).map Json.Dict.ofMembers

theorem sorted_of_reread {items : List (String × PyValue)} {d : Json.Dict}
    (h : reread items = .ok d) : d.toJson.Sorted := by
  obtain ⟨ms, hms, rfl⟩ := map_eq_ok h
  have hplain : plain (.dict items) = .ok (Json.mkObj ms) := by
    rw [plain, hms]
    rfl
  exact sorted_of_plain hplain

/-- What was read back is read back as it is. -/
theorem reread_ofJsonItems {items : List (String × PyValue)} {d : Json.Dict}
    (h : reread items = .ok d) : reread (ofJsonItems d.members) = .ok d := by
  obtain ⟨ms, hms, rfl⟩ := map_eq_ok h
  have hitems := @plainItems_ofJsonItems (Json.Dict.ofMembers ms).members
    fun m hm ↦ plain_ofJson_of_mem_items hms m (mem_ofMembers hm)
  rw [reread, hitems, Except.map]
  exact congrArg Except.ok (Json.Dict.ofMembers_members _)

/-- A mapping whose items have plain values is read back as they are. -/
theorem reread_of_forall₂ {items : List (String × PyValue)} {ms : List (String × Json)}
    (h : List.Forall₂ (fun item m ↦ item.1 = m.1 ∧ plain item.2 = .ok m.2) items ms) :
    reread items = .ok (Json.Dict.ofMembers ms) := by
  have hitems : plainItems items = .ok ms := by
    induction h with
    | nil => rw [plainItems]
    | @cons item m items ms hitem hrest ih =>
      obtain ⟨key, value⟩ := item
      obtain ⟨rfl, hplain⟩ := hitem
      rw [plainItems, hplain]
      simp only [ih]
      rfl
  rw [reread, hitems]
  rfl

theorem plain_dict_of_reread {items : List (String × PyValue)} {d : Json.Dict}
    (h : reread items = .ok d) : plain (.dict items) = .ok d.toJson := by
  obtain ⟨ms, hms, rfl⟩ := map_eq_ok h
  rw [plain, hms]
  rfl

theorem plain_list_str (xs : List String) : plain (.list (xs.map .str)) = .ok (.arr (xs.map .str)) := by
  rw [plain, plainList_str]
  rfl

/-- Numbers of some size are written. -/
theorem plain_int_of_lt {n : ℕ} (h : n < 10 ^ 8) : plain (.int n) = .ok (.int n) := by
  have hlength : (Nat.toDigits 10 (n : Int).natAbs).length ≤ maxStrDigits := by
    rw [Int.natAbs_natCast]
    exact ((Nat.length_toDigits_le_iff (by decide) (by decide)).mpr h).trans (by decide)
  rw [plain, if_pos hlength]

end HiveMind.PyValue

namespace Json.Dict

/-- Where no name is given twice, a dict has the members that it was made of. -/
theorem get?_ofMembers {ms : List (String × Json)} (h : (ms.map Prod.fst).Nodup) (name : String) :
    (ofMembers ms).get? name = ms.lookup name := by
  induction ms using List.reverseRecOn with
  | nil => rfl
  | append_singleton ms m ih =>
    have hset : ofMembers (ms ++ [m]) = (ofMembers ms).set m.1 m.2 := by
      simp only [ofMembers, set, List.foldl_append, List.foldl_cons, List.foldl_nil]
    rw [List.map_append, List.map_singleton, List.nodup_append] at h
    rw [hset, get?_set, ih h.1, List.lookup_append]
    by_cases hname : name = m.1
    · subst hname
      have hnone : ms.lookup m.1 = none := by
        refine List.lookup_eq_none_iff.mpr fun n hn ↦ ?_
        have hne := h.2.2 n.1 (List.mem_map_of_mem hn) m.1 (List.mem_singleton_self _)
        simpa using Ne.symm hne
      rw [if_pos rfl, hnone, List.lookup_cons_self]
      rfl
    · have hsingle : [m].lookup name = none := by
        rw [lookup_cons (k := name) (l := m.1) (v := m.2), if_neg hname]
        rfl
      rw [if_neg hname, hsingle, Option.or_none]

end Json.Dict

/-! ## Members of documents -/

namespace HiveMind.PyValue

theorem lookup_of_plainItems {items : List (String × PyValue)} {ms : List (String × Json)}
    (h : plainItems items = .ok ms) {name : String} {v : PyValue}
    (hv : items.lookup name = some v) : ∃ j, plain v = .ok j ∧ ms.lookup name = some j := by
  induction items generalizing ms with
  | nil => exact nomatch hv
  | cons item items ih =>
    obtain ⟨key, value⟩ := item
    rw [plainItems] at h
    split at h
    · exact nomatch h
    next j hj =>
    obtain ⟨rest, hrest, rfl⟩ := map_eq_ok h
    rw [Json.lookup_cons]
    rw [List.lookup_cons] at hv
    by_cases hkey : name = key
    · rw [beq_iff_eq.mpr hkey] at hv
      rw [if_pos hkey]
      exact ⟨j, Option.some.inj hv ▸ hj, rfl⟩
    · rw [beq_eq_false_iff_ne.mpr hkey] at hv
      rw [if_neg hkey]
      exact ih hrest hv

theorem map_fst_of_plainItems {items : List (String × PyValue)} {ms : List (String × Json)}
    (h : plainItems items = .ok ms) : ms.map Prod.fst = items.map Prod.fst := by
  induction items generalizing ms with
  | nil =>
    rw [plainItems] at h
    exact Except.ok.inj h ▸ rfl
  | cons item items ih =>
    obtain ⟨key, value⟩ := item
    rw [plainItems] at h
    split at h
    · exact nomatch h
    next j hj =>
    obtain ⟨rest, hrest, rfl⟩ := map_eq_ok h
    rw [List.map_cons, List.map_cons, ih hrest]

/-- Documents with the same plain form have the same plain members. -/
theorem plain_member_eq (name : String) {items items' : List (String × PyValue)} {j : Json}
    (h : plain (.dict items) = .ok j) (h' : plain (.dict items') = .ok j)
    (hnodup : (items.map Prod.fst).Nodup) (hnodup' : (items'.map Prod.fst).Nodup)
    {v v' : PyValue} (hv : items.lookup name = some v) (hv' : items'.lookup name = some v') :
    ∃ j, plain v = .ok j ∧ plain v' = .ok j := by
  rw [plain] at h h'
  obtain ⟨ms, hms, rfl⟩ := map_eq_ok h
  obtain ⟨ms', hms', hobj⟩ := map_eq_ok h'
  obtain ⟨j, hj, hlookup⟩ := lookup_of_plainItems hms hv
  obtain ⟨j', hj', hlookup'⟩ := lookup_of_plainItems hms' hv'
  rw [← map_fst_of_plainItems hms] at hnodup
  rw [← map_fst_of_plainItems hms'] at hnodup'
  rw [← Json.Dict.get?_ofMembers hnodup] at hlookup
  rw [← Json.Dict.get?_ofMembers hnodup'] at hlookup'
  have hmembers : (Json.Dict.ofMembers ms').members = (Json.Dict.ofMembers ms).members :=
    Json.obj.inj hobj
  rw [Json.Dict.get?, hmembers] at hlookup'
  exact ⟨j, hj, Option.some.inj (hlookup.symm.trans hlookup') ▸ hj'⟩

end HiveMind.PyValue
