import HiveMind.Lib.Sha256Window
import HiveMind.Reuse.Index

/-!
# The evidence in a history of receipts

The receipts of a history are bound together by their fingerprint and by the order of their states.
The candidate and the digest of its validation are not: each receipt that claims a result carries
its own, and `append` does not compare them with the ones before. What the receipts of a history
have in common is the subject of their candidates.

* **`history_evidence`**: what holds of any two receipts of a history, and what each of them carries.
-/

open Raise HiveMind.Runtime

namespace HiveMind.Reuse

/-! ## States of a history -/

namespace TaskState

/-- `CANDIDATE_SEALED` or later. -/
def hasCandidate : TaskState → Bool
  | candidateSealed | verified | integrated => true
  | _ => false

theorem eq_of_validSuccessor {s s' : TaskState} (h : s.validSuccessor s' = true)
    (hterminal : s.isTerminal = true) : s' = s := by
  rw [validSuccessor, if_pos hterminal] at h
  exact beq_iff_eq.mp h

theorem validSuccessor_self (s : TaskState) : s.validSuccessor s = true := by
  cases s <;> rfl

theorem validSuccessor_trans {s s' s'' : TaskState} (h : s.validSuccessor s' = true)
    (h' : s'.validSuccessor s'' = true) : s.validSuccessor s'' = true := by
  by_cases hs : s.isTerminal = true
  · obtain rfl := eq_of_validSuccessor h hs
    exact h'
  by_cases hs' : s'.isTerminal = true
  · obtain rfl := eq_of_validSuccessor h' hs'
    exact h
  -- no state is left for good, so the ranks do not go down
  have hrank : s.rank ≤ s'.rank := by
    rw [validSuccessor, if_neg hs] at h
    cases s' <;> simp_all [isTerminal]
  rw [validSuccessor, if_neg hs'] at h'
  rw [validSuccessor, if_neg hs]
  split
  · rfl
  · next hnot =>
    rw [if_neg hnot, decide_eq_true_iff] at h'
    exact decide_eq_true (hrank.trans h')

theorem hasCandidate_of_validSuccessor {s s' : TaskState} (h : s.validSuccessor s' = true)
    (hcandidate : s.hasCandidate = true) :
    s'.hasCandidate = true ∨ s' = failed ∨ s' = blocked ∨ s' = cancelled := by
  cases s <;> cases s' <;> revert h hcandidate <;> decide

end TaskState

/-- A receipt that claims a result names a candidate, and one that claims a validation has its
digest. -/
theorem TaskReceipt.carries (r : TaskReceipt) :
    (r.state.hasCandidate = true → r.candidate ≠ none) ∧
      (r.state = .verified ∨ r.state = .integrated → r.validationReceiptDigest ≠ none) ∧
      ∀ c ∈ r.candidate, c.subjectId = r.fingerprint.subjectId := by
  have hvalid := r.valid
  simp only [ReceiptFields.isValid, Bool.and_eq_true] at hvalid
  obtain ⟨⟨⟨-, hstate⟩, hsubject⟩, -⟩ := hvalid
  refine ⟨fun h ↦ ?_, fun h ↦ ?_, fun c hc ↦ ?_⟩
  · cases hcase : r.state <;> rw [hcase] at h hstate <;>
      simp_all [TaskState.hasCandidate, Option.isSome_iff_ne_none]
  · rcases h with h | h <;> rw [h] at hstate <;>
      simp_all [Option.isSome_iff_ne_none]
  · rw [Option.mem_def.mp hc] at hsubject
    exact eq_of_beq hsubject

/-! ## Histories -/

section Histories

variable [Hash256] {receipts : List TaskReceipt} {seen : Option Seen}

/-- Any two receipts of a history are in an order that one step could have. -/
theorem pairwise_validSuccessor (h : receipts.foldlM checkReceipt none = .ok seen) :
    receipts.Pairwise fun r r' ↦ r.state.validSuccessor r'.state = true := by
  have hstates : receipts.Pairwise (fun r r' ↦ r.state.validSuccessor r'.state = true) ∧
      ∀ r ∈ receipts, ∃ s ∈ seen, r.state.validSuccessor s.state = true := by
    refine Trace.history_invariant (fun rs seen ↦
      rs.Pairwise (fun r r' ↦ r.state.validSuccessor r'.state = true) ∧
        ∀ r ∈ rs, ∃ s ∈ seen, r.state.validSuccessor s.state = true) ?_ ?_ h
    · exact ⟨.nil, fun _ h ↦ absurd h List.not_mem_nil⟩
    · rintro rs seen r seen' ⟨hpairwise, hall⟩ hcheck
      obtain ⟨-, -, -, hstate, rfl⟩ := checkReceipt_eq_ok.mp hcheck
      have hlast : ∀ r' ∈ rs, r'.state.validSuccessor r.state = true := by
        intro r' hr'
        obtain ⟨s, hs, hvalid⟩ := hall r' hr'
        exact TaskState.validSuccessor_trans hvalid (hstate s hs)
      refine ⟨?_, fun r' hr' ↦ ⟨_, rfl, ?_⟩⟩
      · rw [List.pairwise_append]
        refine ⟨hpairwise, List.pairwise_singleton _ _, fun r' hr' r'' hr'' ↦ ?_⟩
        rw [List.mem_singleton.mp hr'']
        exact hlast r' hr'
      · rcases List.mem_append.mp hr' with hr' | hr'
        · exact hlast r' hr'
        · rw [List.mem_singleton.mp hr']
          exact r.state.validSuccessor_self
  exact hstates.1

/-- The receipts of a run with one identifier. -/
def historyOf (calls : List (TaskReceipt × String)) (id : String) : List TaskReceipt :=
  (receiptsIn (calls.foldl appendOrKeep [])).filter (·.receiptId = id)

/-- **What any two receipts of a history have in common, and what each of them carries.** -/
theorem history_evidence (calls : List (TaskReceipt × String)) (id : String) :
    (historyOf calls id).Pairwise (fun r r' ↦ r'.fingerprint = r.fingerprint ∧
      (r.state.hasCandidate = true →
        r'.state.hasCandidate = true ∨ r'.state ∈ [.failed, .blocked, .cancelled]) ∧
      (r.state.isTerminal = true → r'.state = r.state)) ∧
    ∀ r ∈ historyOf calls id, (r.state.hasCandidate = true → r.candidate ≠ none) ∧
      (r.state = .verified ∨ r.state = .integrated → r.validationReceiptDigest ≠ none) ∧
      ∀ c ∈ r.candidate, c.subjectId = r.fingerprint.subjectId := by
  obtain ⟨entries, hrows, hchained, huniform⟩ := exists_entries calls
  have hhistory : historyOf calls id = (entries.map Prod.fst).filter (·.receiptId = id) := by
    rw [historyOf, hrows, receiptsIn_rowsOf]
  rw [hhistory]
  refine ⟨?_, fun r _ ↦ r.carries⟩
  obtain ⟨seen, hseen⟩ := hchained id
  refine (pairwise_validSuccessor hseen).imp_of_mem fun {r r'} hr hr' hvalid ↦ ?_
  have hr := List.mem_filter.mp hr
  have hr' := List.mem_filter.mp hr'
  refine ⟨?_, fun hcandidate ↦ ?_, TaskState.eq_of_validSuccessor hvalid⟩
  · apply huniform _ hr'.1 _ hr.1
    rw [of_decide_eq_true hr.2, of_decide_eq_true hr'.2]
  · have hnext := TaskState.hasCandidate_of_validSuccessor hvalid hcandidate
    simpa only [List.mem_cons, List.not_mem_nil, or_false] using hnext

/-! ### The first two receipts of a history -/

theorem appendOrKeep_first {r : TaskReceipt} {key : String} (hkey : isRequired key = true)
    (hsequence : r.sequence = 1) (hprevious : r.previousReceiptDigest = none) :
    appendOrKeep [] (r, key) = [r.toRow key] := by
  have hinsert : insertReceipt r key [] = .ok [r.toRow key] := by
    simp only [insertReceipt, guard_eq_ok, pure_eq_ok, hsequence]
    exact ⟨by decide, by rintro ⟨⟩, by rintro ⟨⟩, rfl⟩
  have hlast : lastRow r.receiptId [] = none := rfl
  have hok : append r key [] = .ok (r, [r.toRow key]) := by
    simp only [append, hkey, List.find?_nil, hlast, hsequence, hprevious, hinsert, Option.map_none,
      Option.getD_none]
    rfl
  rw [appendOrKeep, hok]

theorem appendOrKeep_second {r r' : TaskReceipt} {key key' : String}
    (hkey : isRequired key' = true) (hne : key ≠ key') (hid : r'.receiptId = r.receiptId)
    (hsequence : r'.sequence = r.sequence + 1) (hrepresented : r'.sequence < 2 ^ 63)
    (hprevious : r'.previousReceiptDigest = some r.digest) (hfits : r.Fits)
    (hfingerprint : r'.fingerprint = r.fingerprint)
    (hstate : r.state.validSuccessor r'.state = true) (hdigest : r.digest ≠ r'.digest) :
    appendOrKeep [r.toRow key] (r', key') = [r.toRow key, r'.toRow key'] := by
  have hretry : [r.toRow key].find? (·.idempotencyKey == key') = none := by
    apply List.find?_eq_none.mpr
    intro row hrow
    rw [List.mem_singleton.mp hrow, beq_iff_eq]
    exact hne
  have hlast : lastRow r'.receiptId [r.toRow key] = some (r.toRow key) := by
    have hall : [r.toRow key].filter (·.receiptId = r'.receiptId) = [r.toRow key] :=
      List.filter_eq_self.mpr fun row hrow ↦ by
        rw [List.mem_singleton.mp hrow]
        exact decide_eq_true hid.symm
    rw [lastRow, hall]
    rfl
  have hsuccessor : checkSuccessor r' (r.toRow key) = .ok () := by
    apply checkSuccessor_eq_ok.mpr
    refine ⟨r, ?_, hfingerprint, hstate⟩
    rw [decode_toRow, if_pos hfits]
  have hinsert : insertReceipt r' key' [r.toRow key] = .ok [r.toRow key, r'.toRow key'] := by
    simp only [insertReceipt, guard_eq_ok, pure_eq_ok, List.any_cons, List.any_nil, Bool.or_false,
      beq_iff_eq, Bool.and_eq_true, not_le]
    refine ⟨hrepresented, hdigest, fun h ↦ ?_, rfl⟩
    have hrow : (r.toRow key).receiptSequence = r.sequence := rfl
    rw [hrow, hsequence] at h
    omega
  have hexpected : ((some (r.toRow key)).map (·.receiptSequence + 1)).getD 1 = r.sequence + 1 := rfl
  have hlastDigest : (some (r.toRow key)).map (·.receiptDigest) = some r.digest := rfl
  have hok : append r' key' [r.toRow key] = .ok (r', [r.toRow key, r'.toRow key']) := by
    simp only [append, guard_eq_ok, hkey, hretry, hlast, hinsert, hsuccessor, hexpected, hlastDigest,
      hsequence, hprevious]
    exact ⟨by simp, by simp, by simp, rfl⟩
  rw [appendOrKeep, hok]

end Histories

/-! ## A validation of another candidate -/

private def zeros (n : ℕ) : List Char := List.replicate n '0'

private def textChars (cs : List Char) : List Char := '"' :: cs.flatMap Json.escapeChar ++ ['"']

private theorem strChars_ofList (cs : List Char) : Json.strChars (String.ofList cs) = textChars cs := by
  rw [Json.strChars, String.toList_ofList, textChars]

private def fingerprint : TaskFingerprint where
  planDigest := zeroDigest
  nodeId := "n"
  subjectId := zeroDigest
  subjectSnapshotDigest := zeroDigest
  relevantSurfaceDigest := zeroDigest
  directDependencyReceiptDigests := []
  authorityDigest := zeroDigest
  compilerDigest := zeroDigest
  policyDigest := zeroDigest
  environmentDigest := zeroDigest
  taskContractDigest := zeroDigest
  valid := by
    simp only [FingerprintFields.isValid, List.all_cons, isDigest_zeroDigest]
    decide

/-- A candidate of the subject. -/
private def candidateOf (digit : Char) (h : isSha (String.ofList (List.replicate 40 digit)) = true) :
    CandidateIdentity where
  commit := String.ofList (List.replicate 40 digit)
  tree := String.ofList (List.replicate 40 digit)
  subjectId := zeroDigest
  commit_isSha := h
  tree_isSha := h
  subjectId_isDigest := isDigest_zeroDigest

private def sealedCandidate : CandidateIdentity := candidateOf '0' (by decide +kernel)

private def otherCandidate : CandidateIdentity := candidateOf '1' (by decide +kernel)

private def sealedReceipt : TaskReceipt where
  receiptId := "r"
  fingerprint := fingerprint
  state := .candidateSealed
  sequence := 1
  candidate := some sealedCandidate
  validationReceiptDigest := none
  integratedTarget := none
  blockerDigest := none
  previousReceiptDigest := none
  valid := by decide +kernel

private theorem isValid_verified {previous : String} (h : isDigest previous = true) :
    ReceiptFields.isValid ⟨"r", fingerprint, .verified, 2, some otherCandidate, some zeroDigest, none,
      none, some previous⟩ = true := by
  have hrest : ReceiptFields.isValid ⟨"r", fingerprint, .verified, 2, some otherCandidate,
      some zeroDigest, none, none, none⟩ = true := by decide
  simp only [ReceiptFields.isValid, Bool.and_eq_true, List.all_cons, Option.all_some,
    Option.all_none, h, List.all_nil, and_true] at hrest ⊢
  exact hrest

private def verifiedReceipt : TaskReceipt where
  receiptId := "r"
  fingerprint := fingerprint
  state := .verified
  sequence := 2
  candidate := some otherCandidate
  validationReceiptDigest := some zeroDigest
  integratedTarget := none
  blockerDigest := none
  previousReceiptDigest := some sealedReceipt.digest
  valid := isValid_verified (isDigest_jsonDigest _)

private def digestChars : List Char := digestText (zeros 64)

private def fingerprintText : List Char := objectText [
  ("authority_digest", digestChars), ("compiler_digest", digestChars),
  ("direct_dependency_receipt_digests", ['[', ']']), ("environment_digest", digestChars),
  ("node_id", Json.strChars "n"), ("plan_digest", digestChars), ("policy_digest", digestChars),
  ("relevant_surface_digest", digestChars), ("schema_version", Json.intChars 1),
  ("subject_id", digestChars), ("subject_snapshot_digest", digestChars),
  ("task_contract_digest", digestChars)]

private def candidateText (digit : Char) : List Char := objectText [
  ("commit", textChars (List.replicate 40 digit)), ("subject_id", digestChars),
  ("tree", textChars (List.replicate 40 digit))]

private def receiptText (fingerprintHex : List Char) (digit : Char) (previous : List Char)
    (sequence : Int) (state : String) (validation : List Char) : List Char := objectText [
  ("blocker_digest", Json.null.chars), ("candidate", candidateText digit),
  ("fingerprint", fingerprintText), ("fingerprint_digest", digestText fingerprintHex),
  ("integrated_target", Json.null.chars), ("previous_receipt_digest", previous),
  ("receipt_id", Json.strChars "r"), ("schema_version", Json.intChars 1),
  ("sequence", Json.intChars sequence), ("state", Json.strChars state),
  ("validation_receipt_digest", validation)]

private theorem strChars_zeroDigest : Json.strChars zeroDigest = digestChars :=
  strChars_digestOfHex (zeros 64)

private theorem chars_fingerprint : fingerprint.toJson.chars = fingerprintText := by
  rw [TaskFingerprint.toJson, Json.Dict.toJson, chars_obj]
  simp only [TaskFingerprint.toDict, fingerprint, List.map_cons, List.map_nil, chars_str, chars_int,
    strChars_zeroDigest]
  rfl

private theorem chars_candidateOf (digit : Char)
    (h : isSha (String.ofList (List.replicate 40 digit)) = true) :
    (candidateOf digit h).toJson.chars = candidateText digit := by
  rw [CandidateIdentity.toJson, Json.Dict.toJson, chars_obj]
  simp only [CandidateIdentity.toDict, candidateOf, List.map_cons, List.map_nil, chars_str,
    strChars_zeroDigest, strChars_ofList]
  rfl

private def fingerprintHex : List Char := Hash256.hexChars fingerprintText

private theorem digest_fingerprint : fingerprint.digest = digestOfHex fingerprintHex := by
  rw [TaskFingerprint.digest, jsonDigest, chars_fingerprint]
  rfl

private def sealedHex : List Char := Hash256.hexChars
  (receiptText fingerprintHex '0' Json.null.chars 1 "CANDIDATE_SEALED" Json.null.chars)

private theorem chars_sealedReceipt : sealedReceipt.toJson.chars =
    receiptText fingerprintHex '0' Json.null.chars 1 "CANDIDATE_SEALED" Json.null.chars := by
  rw [TaskReceipt.toJson, Json.Dict.toJson, chars_obj]
  simp only [TaskReceipt.toDict, sealedReceipt, List.map_cons, List.map_nil, chars_str, chars_int,
    Runtime.optionalText, optionalCandidate, sealedCandidate, chars_candidateOf, chars_fingerprint,
    digest_fingerprint, strChars_digestOfHex]
  rfl

private theorem digest_sealedReceipt : sealedReceipt.digest = digestOfHex sealedHex := by
  rw [TaskReceipt.digest, jsonDigest, chars_sealedReceipt]
  rfl

private def verifiedHex : List Char := Hash256.hexChars
  (receiptText fingerprintHex '1' (digestText sealedHex) 2 "VERIFIED" digestChars)

private theorem digest_verifiedReceipt : verifiedReceipt.digest = digestOfHex verifiedHex := by
  have hchars : verifiedReceipt.toJson.chars =
      receiptText fingerprintHex '1' (digestText sealedHex) 2 "VERIFIED" digestChars := by
    rw [TaskReceipt.toJson, Json.Dict.toJson, chars_obj]
    simp only [TaskReceipt.toDict, verifiedReceipt, List.map_cons, List.map_nil, chars_str, chars_int,
      Runtime.optionalText, optionalCandidate, otherCandidate, chars_candidateOf, chars_fingerprint,
      digest_fingerprint, digest_sealedReceipt, strChars_digestOfHex, strChars_zeroDigest]
    rfl
  rw [TaskReceipt.digest, jsonDigest, hchars]
  rfl

private theorem sealedHex_ne_verifiedHex : sealedHex ≠ verifiedHex := by
  rw [verifiedHex, sealedHex, instHash256_eq]
  decide +kernel

private def calls : List (TaskReceipt × String) :=
  [(sealedReceipt, "first"), (verifiedReceipt, "second")]

private theorem fits_sealedReceipt : sealedReceipt.Fits := by
  have hlength : (receiptText fingerprintHex '0' Json.null.chars 1 "CANDIDATE_SEALED"
      Json.null.chars).length ≤ 262144 := by
    rw [fingerprintHex, instHash256_eq]
    decide +kernel
  have hle := Json.utf8ByteSize_ofList_le sealedReceipt.toJson.chars
  rw [chars_sealedReceipt] at hle
  have hsize : sealedReceipt.encoded.utf8ByteSize ≤ 4 * (receiptText fingerprintHex '0'
      Json.null.chars 1 "CANDIDATE_SEALED" Json.null.chars).length := by
    rw [TaskReceipt.encoded, Json.dumps, chars_sealedReceipt]
    exact hle
  have hbound : maximumJsonBytes = 4 * 262144 := rfl
  rw [TaskReceipt.Fits, hbound]
  omega

private theorem foldl_calls : calls.foldl appendOrKeep [] = rowsOf calls := by
  have hdigest : sealedReceipt.digest ≠ verifiedReceipt.digest := by
    rw [digest_sealedReceipt, digest_verifiedReceipt]
    exact fun h ↦ sealedHex_ne_verifiedHex (digestOfHex_injective h)
  have hfirst : appendOrKeep [] (sealedReceipt, "first") = [sealedReceipt.toRow "first"] :=
    appendOrKeep_first (by decide) rfl rfl
  have hsecond : appendOrKeep [sealedReceipt.toRow "first"] (verifiedReceipt, "second") =
      [sealedReceipt.toRow "first", verifiedReceipt.toRow "second"] :=
    appendOrKeep_second (by decide) (by decide) rfl rfl (by decide) rfl fits_sealedReceipt rfl rfl
      hdigest
  rw [calls, List.foldl_cons, List.foldl_cons, List.foldl_nil, hfirst, hsecond, rowsOf,
    List.map_cons, List.map_cons, List.map_nil]

/-- A sealed candidate is followed by the validation of another one. -/
theorem verified_other_candidate :
    ¬∀ (calls : List (TaskReceipt × String)) (id : String), (historyOf calls id).Pairwise
      fun r r' ↦ (r.state.hasCandidate = true → ∀ c ∈ r.candidate, r'.candidate = some c) ∧
        (r'.state = .verified ∨ r'.state = .integrated → ∀ d ∈ r.validationReceiptDigest,
          r'.validationReceiptDigest = some d) := by
  intro h
  have hhistory : historyOf calls "r" = [sealedReceipt, verifiedReceipt] := by
    rw [historyOf, foldl_calls, receiptsIn_rowsOf]
    rfl
  have hpair := h calls "r"
  rw [hhistory, List.pairwise_pair] at hpair
  have hsame : some otherCandidate = some sealedCandidate := hpair.1 rfl sealedCandidate rfl
  have hcommit := congrArg CandidateIdentity.commit (Option.some.inj hsame)
  exact absurd (String.ofList_injective hcommit) (by decide)

end HiveMind.Reuse
