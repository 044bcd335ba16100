import HiveMind.Kernel.Effects

/-!
# Delegation and revocation

A registry changes by four operations, which admit a root, admit a child under an admitted parent,
or revoke. An envelope is admitted under the digest of its contents and only after its parent, which
it must not exceed. That is the invariant `Attenuates`, and it passes along whole chains of parents.

* **`delegation_attenuates`**: what an envelope is authorized for, every ancestor of it is authorized
  for, and its limits are within those of the ancestor.
* **`revocation_is_permanent`**: after an admitted envelope was revoked, no calls make the registry
  authorize it again, or anything below it, or anything that grants the same under another identity.
-/

open Std (ExtTreeMap)
open Raise

namespace HiveMind

/-! ## Envelopes within envelopes -/

/-- One envelope grants no more than another. -/
structure ConstraintEnvelope.Within (e f : ConstraintEnvelope) : Prop where
  allowed : e.allowedActions ⊆ f.allowedActions
  denied : f.deniedActions ⊆ e.deniedActions
  reads : e.pathReadScope ⊆ f.pathReadScope
  writes : e.pathWriteScope ⊆ f.pathWriteScope
  network : e.networkAllowlist ⊆ f.networkAllowlist
  data : e.dataScopes ⊆ f.dataScopes
  secrets : e.secretScopes ⊆ f.secretScopes
  gates : f.humanGates ⊆ e.humanGates
  expiry : (instantOf e.expiresAt).getD 0 ≤ (instantOf f.expiresAt).getD 0
  budgets : e.budgets.isWithin f.budgets = true

theorem Budget.isWithin_refl (b : Budget) : b.isWithin b = true := by
  simp [Budget.isWithin]

theorem Budget.isWithin_trans {a b c : Budget} (hab : a.isWithin b = true)
    (hbc : b.isWithin c = true) : a.isWithin c = true := by
  simp only [Budget.isWithin, Bool.and_eq_true, decide_eq_true_eq] at *
  omega

namespace ConstraintEnvelope

variable {e f g : ConstraintEnvelope}

theorem isNoBroaderThan_iff : e.isNoBroaderThan f = true ↔ e.Within f := by
  have hsub : ∀ xs ys : List String, xs.all ys.contains = true ↔ xs ⊆ ys := by
    intro xs ys
    simp only [List.all_eq_true, List.contains_iff_mem, List.subset_def]
  simp only [isNoBroaderThan, Bool.and_eq_true, hsub, decide_eq_true_eq]
  constructor
  · rintro ⟨⟨⟨⟨⟨⟨⟨⟨⟨h₁, h₂⟩, h₃⟩, h₄⟩, h₅⟩, h₆⟩, h₇⟩, h₈⟩, h₉⟩, h₁₀⟩
    exact ⟨h₁, h₂, h₃, h₄, h₅, h₆, h₇, h₈, h₉, h₁₀⟩
  · rintro ⟨h₁, h₂, h₃, h₄, h₅, h₆, h₇, h₈, h₉, h₁₀⟩
    exact ⟨⟨⟨⟨⟨⟨⟨⟨⟨h₁, h₂⟩, h₃⟩, h₄⟩, h₅⟩, h₆⟩, h₇⟩, h₈⟩, h₉⟩, h₁₀⟩

namespace Within

theorem refl (e : ConstraintEnvelope) : e.Within e where
  allowed := List.Subset.refl _
  denied := List.Subset.refl _
  reads := List.Subset.refl _
  writes := List.Subset.refl _
  network := List.Subset.refl _
  data := List.Subset.refl _
  secrets := List.Subset.refl _
  gates := List.Subset.refl _
  expiry := le_rfl
  budgets := Budget.isWithin_refl _

theorem trans (hef : e.Within f) (hfg : f.Within g) : e.Within g where
  allowed := List.Subset.trans hef.allowed hfg.allowed
  denied := List.Subset.trans hfg.denied hef.denied
  reads := List.Subset.trans hef.reads hfg.reads
  writes := List.Subset.trans hef.writes hfg.writes
  network := List.Subset.trans hef.network hfg.network
  data := List.Subset.trans hef.data hfg.data
  secrets := List.Subset.trans hef.secrets hfg.secrets
  gates := List.Subset.trans hfg.gates hef.gates
  expiry := hef.expiry.trans hfg.expiry
  budgets := Budget.isWithin_trans hef.budgets hfg.budgets

/-- What an envelope grants, a wider one grants. -/
theorem grants (hef : e.Within f) {action path now : String}
    (h : AuthorityRegistry.Grants e action path now) :
    AuthorityRegistry.Grants f action path now := by
  obtain ⟨⟨moment, expiry, hmoment, hexpiry, hlive⟩, hallowed, hdenied, hscope⟩ := h
  obtain ⟨-, -, -, -, -, -, -, -, htime, -⟩ := f.valid
  obtain ⟨expiry', hexpiry'⟩ := Option.isSome_iff_exists.mp htime
  refine ⟨⟨moment, expiry', hmoment, hexpiry', ?_⟩, hef.allowed hallowed,
    fun h ↦ hdenied (hef.denied h), ?_⟩
  · have hle := hef.expiry
    rw [hexpiry, hexpiry', Option.getD_some, Option.getD_some] at hle
    exact hlive.trans_le hle
  · -- the scope that counts is the one for reading or the one for writing, for both envelopes
    have hsub : (if readActions.contains action then e.pathReadScope else e.pathWriteScope) ⊆
        (if readActions.contains action then f.pathReadScope else f.pathWriteScope) := by
      split
      · exact hef.reads
      · exact hef.writes
    rw [AuthorityRegistry.inScope, List.any_eq_true] at hscope ⊢
    obtain ⟨p, hp, hbelow⟩ := hscope
    exact ⟨p, hsub hp, hbelow⟩

end Within

private theorem ofStrings_inj {xs ys : List String} (h : Json.ofStrings xs = Json.ofStrings ys) :
    xs = ys := by
  have hread := congrArg Json.asStrings? h
  rw [asStrings?_ofStrings, asStrings?_ofStrings] at hread
  exact Option.some.inj hread

private theorem budget_toJson_inj {b c : Budget} (h : b.toJson = c.toJson) : b = c := by
  obtain ⟨b₁, b₂, b₃, b₄, b₅, b₆, b₇, b₈⟩ := b
  obtain ⟨c₁, c₂, c₃, c₄, c₅, c₆, c₇, c₈⟩ := c
  simp only [Budget.toJson, Json.obj.injEq, List.cons.injEq, Prod.mk.injEq, Json.int.injEq,
    Int.natCast_inj, true_and, and_true] at h
  obtain ⟨h₁, h₂, h₃, h₄, h₅, h₆, h₇, h₈⟩ := h
  rw [h₁, h₂, h₃, h₄, h₅, h₆, h₇, h₈]

/-- An envelope is its contents and its seal. -/
theorem eq_of_contentDocument_eq (hdocument : e.contentDocument = f.contentDocument)
    (hdigest : e.digestValue = f.digestValue) : e = f := by
  simp only [contentDocument, Json.obj.injEq, List.cons.injEq, Prod.mk.injEq, Json.str.injEq,
    true_and, and_true] at hdocument
  obtain ⟨hrole, hallowed, hbudgets, hdata, hdenied, hid, hexpires, hgates, hmission, hnetwork,
    hparent, hreads, hwrites, hpolicy, hrisk, hsecrets, hwork⟩ := hdocument
  have hparent' : e.parentEnvelopeDigest = f.parentEnvelopeDigest := by
    cases he : e.parentEnvelopeDigest <;> cases hf : f.parentEnvelopeDigest <;>
      simp_all
  cases e
  cases f
  simp only [mk.injEq]
  exact ⟨hid, hmission, hwork, hparent', hrole, hrisk, ofStrings_inj hallowed,
    ofStrings_inj hdenied, ofStrings_inj hreads, ofStrings_inj hwrites, ofStrings_inj hnetwork,
    ofStrings_inj hdata, ofStrings_inj hsecrets, ofStrings_inj hgates, budget_toJson_inj hbudgets,
    hexpires, hpolicy, hdigest⟩

end ConstraintEnvelope

section Calls

variable [Hash256]

/-! ## Calls -/

inductive RegistryCall where
  | mintRoot (envelope : ConstraintEnvelope) (issuer authorityRef recordedAt : String)
  | admitExternalRoot (envelope : ConstraintEnvelope) (attestation : ExternalRootAttestation)
      (verifier : ExternalRootVerifier)
  | register (envelope : ConstraintEnvelope) (parent : Option ConstraintEnvelope)
  | revoke (digest : String)

namespace RegistryCall

def run (registry : AuthorityRegistry) : RegistryCall → Except Exc AuthorityRegistry
  | mintRoot envelope issuer authorityRef recordedAt =>
    registry.mintRoot envelope issuer authorityRef recordedAt
  | admitExternalRoot envelope attestation verifier =>
    registry.admitExternalRoot envelope attestation verifier
  | register envelope parent => registry.register envelope parent
  | revoke digest => .ok (registry.revoke digest)

/-- The registry after the call, whether it returns or raises. -/
def after (registry : AuthorityRegistry) (call : RegistryCall) : AuthorityRegistry :=
  match call.run registry with
  | .ok registry' => registry'
  | .error _ => registry

/-- The envelope that the call presents. -/
def presents : RegistryCall → Option ConstraintEnvelope
  | mintRoot envelope _ _ _ => some envelope
  | admitExternalRoot envelope _ _ => some envelope
  | register envelope _ => some envelope
  | revoke _ => none

end RegistryCall

/-- The registry after some calls, returned or raised. -/
def afterRegistryCalls (registry : AuthorityRegistry) (calls : List RegistryCall) :
    AuthorityRegistry :=
  calls.foldl RegistryCall.after registry

/-! ## What a call does -/

/-- The envelope may be admitted to the registry: it seals its contents, and if it names a parent,
the parent is admitted and not exceeded. -/
structure AuthorityRegistry.Admissible (registry : AuthorityRegistry)
    (envelope : ConstraintEnvelope) : Prop where
  sealed : envelope.digestValue = envelope.contentDigest
  bounded : ∀ digest ∈ envelope.parentEnvelopeDigest, ∃ parent,
    registry.envelopes[digest]? = some parent ∧ envelope.isNoBroaderThan parent = true

/-- A call does nothing, or admits what it presents, or revokes. -/
inductive RegistryChange (registry : AuthorityRegistry) (call : RegistryCall) :
    AuthorityRegistry → Prop
  | nothing : RegistryChange registry call registry
  | admission (envelope : ConstraintEnvelope) (presented : call.presents = some envelope)
      (admissible : registry.Admissible envelope) (roots : ExtTreeMap String RootProvenance)
      (externalRoots : ExtTreeMap String (String × String)) :
      RegistryChange registry call { registry with
        envelopes := registry.envelopes.insert envelope.digestValue envelope
        roots := roots
        externalRoots := externalRoots }
  | revocation (digest : String) : RegistryChange registry call (registry.revoke digest)

theorem RegistryCall.change (registry : AuthorityRegistry) (call : RegistryCall) :
    RegistryChange registry call (call.after registry) := by
  rw [RegistryCall.after]
  cases hrun : call.run registry with
  | error e => exact .nothing
  | ok registry' =>
    dsimp only
    cases call with
    | mintRoot envelope issuer authorityRef recordedAt =>
      simp only [RegistryCall.run, AuthorityRegistry.mintRoot, guard_eq_ok, bind_eq_ok, pure_eq_ok,
        AuthorityRegistry.admitEnvelope_eq_ok] at hrun
      obtain ⟨hroot, -, -, -, _, ⟨hsealed, -, rfl⟩, rfl⟩ := hrun
      refine .admission envelope rfl ⟨hsealed, fun digest hdigest ↦ ?_⟩ _ _
      rw [Option.mem_def.mp hdigest] at hroot
      exact absurd rfl hroot
    | admitExternalRoot envelope attestation verifier =>
      simp only [RegistryCall.run, AuthorityRegistry.admitExternalRoot, guard_eq_ok, bind_eq_ok,
        pure_eq_ok, AuthorityRegistry.admitEnvelope_eq_ok] at hrun
      obtain ⟨hroot, -, _, -, _, -, _, -, _, -, -, _, ⟨hsealed, -, rfl⟩, rfl⟩ := hrun
      refine .admission envelope rfl ⟨hsealed, fun digest hdigest ↦ ?_⟩ _ _
      rw [Option.mem_def.mp hdigest] at hroot
      exact absurd rfl hroot
    | register envelope parent =>
      rw [RegistryCall.run, AuthorityRegistry.register] at hrun
      split at hrun
      · cases hrun
      next digest hdigest =>
      split at hrun
      · cases hrun
      next admitted hadmitted =>
      simp only [guard_eq_ok, AuthorityRegistry.admitEnvelope_eq_ok, not_or, not_not,
        Bool.not_eq_true', Bool.not_eq_false] at hrun
      obtain ⟨-, ⟨-, hbroader⟩, hsealed, -, rfl⟩ := hrun
      refine .admission envelope rfl ⟨hsealed, fun digest' hdigest' ↦ ?_⟩ _ _
      rw [Option.some.inj (hdigest'.symm.trans hdigest)]
      exact ⟨admitted, hadmitted, hbroader⟩
    | revoke digest =>
      obtain rfl := Except.ok.inj hrun
      exact .revocation digest

/-! ## Chains of parents -/

namespace AuthorityRegistry

/-- Envelopes are kept under their digests. -/
def Keyed (registry : AuthorityRegistry) : Prop :=
  ∀ (digest : String) (envelope : ConstraintEnvelope),
    registry.envelopes[digest]? = some envelope → envelope.digestValue = digest

/-- The envelope, or a parent of it, or a parent of that, and so on. -/
def Ancestor (registry : AuthorityRegistry) : ConstraintEnvelope → ConstraintEnvelope → Prop :=
  Walk.Reach registry.parentOf

omit [Hash256] in
theorem keyed_emptyRegistry : emptyRegistry.Keyed := by
  intro digest envelope h
  exact nomatch h.symm.trans ExtTreeMap.getElem?_empty

variable {registry : AuthorityRegistry}

omit [Hash256] in
theorem parentOf_eq_some {envelope parent : ConstraintEnvelope} :
    registry.parentOf envelope = some parent ↔
      ∃ digest, envelope.parentEnvelopeDigest = some digest ∧
        registry.envelopes[digest]? = some parent := by
  rw [parentOf, Option.bind_eq_some_iff]

/-- An admitted envelope counts as revoked exactly when it or an ancestor of it is marked, also
where parents should run in a circle. -/
theorem isRevoked_eq_true_iff (hkeyed : registry.Keyed) {digest : String}
    {envelope : ConstraintEnvelope} (henvelope : registry.envelopes[digest]? = some envelope) :
    registry.isRevoked envelope = true ↔
      ∃ ancestor, registry.Ancestor envelope ancestor ∧ registry.isMarked ancestor = true := by
  have hadmitted : ∀ e : ConstraintEnvelope, (∃ d : String, registry.envelopes[d]? = some e) →
      registry.envelopes[e.digestValue]? = some e := by
    rintro e ⟨d, he⟩
    rw [hkeyed d e he]
    exact he
  refine Walk.guarded_eq_true_iff (fun e ↦ ∃ d : String, registry.envelopes[d]? = some e)
    registry.envelopes.keys ?_ ?_ ?_ ?_ ⟨digest, henvelope⟩
  · rintro a b - hparent
    obtain ⟨d, -, hb⟩ := parentOf_eq_some.mp hparent
    exact ⟨d, hb⟩
  · intro a b ha hb hkey
    have hsame := hadmitted a ha
    rw [hkey, hadmitted b hb] at hsame
    exact (Option.some.inj hsame).symm
  · intro a ha
    rw [ExtTreeMap.mem_keys, ExtTreeMap.mem_iff_isSome_getElem?, hadmitted a ha]
    rfl
  · rw [ExtTreeMap.length_keys]
    omega

/-- After a call the registry holds what it held, perhaps with one envelope more, and nothing that
was revoked is not. -/
theorem keyed_after (hkeyed : registry.Keyed) (call : RegistryCall) :
    (call.after registry).Keyed := by
  have hchange := RegistryCall.change registry call
  generalize call.after registry = registry' at hchange
  cases hchange with
  | nothing => exact hkeyed
  | admission envelope presented admissible roots externalRoots =>
    intro digest found hfound
    rw [ExtTreeMap.getElem?_insert] at hfound
    split at hfound
    · next hdigest =>
      rw [← Option.some.inj hfound]
      exact Std.LawfulEqCmp.eq_of_compare hdigest
    · exact hkeyed digest found hfound
  | revocation digest => exact hkeyed

theorem isMarked_after (call : RegistryCall) {envelope : ConstraintEnvelope}
    (h : registry.isMarked envelope = true) : (call.after registry).isMarked envelope = true := by
  have hchange := RegistryCall.change registry call
  generalize call.after registry = registry' at hchange
  cases hchange with
  | nothing => exact h
  | admission envelope' presented admissible roots externalRoots => exact h
  | revocation digest =>
    simp only [isMarked, Bool.or_eq_true, List.contains_iff_mem] at h ⊢
    rcases h with h | h
    · exact .inl (List.mem_cons_of_mem digest h)
    · refine .inr ?_
      rw [revoke]
      split
      · exact List.mem_cons_of_mem _ h
      · exact h

theorem keyed_afterRegistryCalls (hkeyed : registry.Keyed) (calls : List RegistryCall) :
    (afterRegistryCalls registry calls).Keyed := by
  induction calls generalizing registry with
  | nil => exact hkeyed
  | cons call calls ih => exact ih (keyed_after hkeyed call)

theorem isMarked_afterRegistryCalls (calls : List RegistryCall) {envelope : ConstraintEnvelope}
    (h : registry.isMarked envelope = true) :
    (afterRegistryCalls registry calls).isMarked envelope = true := by
  induction calls generalizing registry with
  | nil => exact h
  | cons call calls ih => exact ih (isMarked_after call h)

/-- A marked ancestor is enough for nothing to be authorized. -/
theorem not_authorize_of_isMarked (hkeyed : registry.Keyed) {key digest action target now : String}
    {envelope ancestor : ConstraintEnvelope}
    (henvelope : registry.envelopes[digest]? = some envelope)
    (hancestor : registry.Ancestor envelope ancestor) (hmarked : registry.isMarked ancestor = true)
    (token : CapabilityToken key) : registry.authorize key digest action target now ≠ .ok token := by
  intro h
  obtain ⟨found, -, hfound, -⟩ := authorize_eq_ok.mp h
  obtain ⟨hfound, hlive⟩ := envelope_eq_ok.mp hfound
  obtain rfl := Option.some.inj (hfound.symm.trans henvelope)
  have hrevoked := (isRevoked_eq_true_iff hkeyed henvelope).mpr ⟨ancestor, hancestor, hmarked⟩
  exact nomatch hrevoked.symm.trans hlive

end AuthorityRegistry

/-! ## Revocation -/

/-- **After an admitted envelope was revoked, and after any calls that follow, nothing is authorized
under its digest, nor under an envelope that has it among its ancestors, nor under one with the same
authority key.** -/
theorem revocation_is_permanent (before later : List RegistryCall) {digest : String}
    {revoked : ConstraintEnvelope}
    (hadmitted : (afterRegistryCalls emptyRegistry before).envelopes[digest]? = some revoked) :
    let registry := afterRegistryCalls
      ((afterRegistryCalls emptyRegistry before).revoke digest) later
    ∀ (other : String) (envelope : ConstraintEnvelope),
      registry.envelopes[other]? = some envelope →
      (other = digest ∨
        (∃ ancestor, registry.Ancestor envelope ancestor ∧ ancestor.digestValue = digest) ∨
        envelope.authorityKey = revoked.authorityKey) →
      ∀ (key action target now : String) (token : CapabilityToken key),
        registry.authorize key other action target now ≠ .ok token := by
  intro registry other envelope henvelope hrelated key action target now token
  have hstart : (afterRegistryCalls emptyRegistry before).Keyed :=
    AuthorityRegistry.keyed_afterRegistryCalls AuthorityRegistry.keyed_emptyRegistry before
  have hrevoked : ((afterRegistryCalls emptyRegistry before).revoke digest).Keyed := hstart
  have hkeyed : registry.Keyed := AuthorityRegistry.keyed_afterRegistryCalls hrevoked later
  -- whatever has the digest or the authority key was marked when the envelope was revoked
  have hmarked : ∀ e : ConstraintEnvelope,
      e.digestValue = digest ∨ e.authorityKey = revoked.authorityKey →
        registry.isMarked e = true := by
    intro e he
    refine AuthorityRegistry.isMarked_afterRegistryCalls later ?_
    simp only [AuthorityRegistry.isMarked, AuthorityRegistry.revoke, hadmitted, Bool.or_eq_true,
      List.contains_iff_mem]
    rcases he with he | he
    · exact .inl (he ▸ List.mem_cons_self)
    · exact .inr (he ▸ List.mem_cons_self)
  rcases hrelated with rfl | ⟨ancestor, hancestor, hdigest⟩ | hauthority
  · exact AuthorityRegistry.not_authorize_of_isMarked hkeyed henvelope .refl
      (hmarked envelope (.inl (hkeyed other envelope henvelope))) token
  · exact AuthorityRegistry.not_authorize_of_isMarked hkeyed henvelope hancestor
      (hmarked ancestor (.inl hdigest)) token
  · exact AuthorityRegistry.not_authorize_of_isMarked hkeyed henvelope .refl
      (hmarked envelope (.inr hauthority)) token

/-! ## Attenuation -/

/-- The calls present no two envelopes with different contents and the same digest. -/
def CollisionFree (calls : List RegistryCall) : Prop :=
  ∀ call ∈ calls, ∀ other ∈ calls, ∀ e f, call.presents = some e → other.presents = some f →
    e.contentDigest = f.contentDigest → e.contentDocument = f.contentDocument

namespace AuthorityRegistry

variable {registry : AuthorityRegistry} {all : List RegistryCall}

/-- Every admitted envelope was presented, is kept under the digest of its contents, and is within
the admitted envelope that it names as its parent. -/
structure Attenuates (all : List RegistryCall) (registry : AuthorityRegistry) : Prop where
  keyed : registry.Keyed
  sealed : ∀ (digest : String) (e : ConstraintEnvelope), registry.envelopes[digest]? = some e →
    e.digestValue = e.contentDigest ∧ ∃ call ∈ all, call.presents = some e
  bounded : ∀ (digest : String) (e : ConstraintEnvelope), registry.envelopes[digest]? = some e →
    ∀ parent ∈ e.parentEnvelopeDigest, ∃ f,
      registry.envelopes[parent]? = some f ∧ e.Within f

theorem attenuates_emptyRegistry : emptyRegistry.Attenuates all := by
  have hnone : ∀ (digest : String) (e : ConstraintEnvelope),
      emptyRegistry.envelopes[digest]? ≠ some e :=
    fun digest e h ↦ (nomatch h.symm.trans ExtTreeMap.getElem?_empty)
  exact ⟨keyed_emptyRegistry, fun digest e h ↦ absurd h (hnone digest e),
    fun digest e h ↦ absurd h (hnone digest e)⟩

/-- Where an envelope is kept under the digest of another one that was presented, they are the
same, so that no admission replaces anything. -/
private theorem Attenuates.getElem?_insert (hfree : CollisionFree all)
    (h : registry.Attenuates all) {call : RegistryCall} (hcall : call ∈ all)
    {e : ConstraintEnvelope} (hpresented : call.presents = some e)
    (hsealed : e.digestValue = e.contentDigest) {digest : String} {f : ConstraintEnvelope}
    (hf : registry.envelopes[digest]? = some f) :
    (registry.envelopes.insert e.digestValue e)[digest]? = some f := by
  rw [ExtTreeMap.getElem?_insert]
  split
  · next hdigest =>
    have hkey : e.digestValue = f.digestValue :=
      (Std.LawfulEqCmp.eq_of_compare hdigest).trans (h.keyed digest f hf).symm
    obtain ⟨hsealed', other, hother, hpresented'⟩ := h.sealed digest f hf
    have hdocument := hfree call hcall other hother e f hpresented hpresented'
      (hsealed.symm.trans (hkey.trans hsealed'))
    rw [ConstraintEnvelope.eq_of_contentDocument_eq hdocument hkey]
  · exact hf

theorem Attenuates.after (hfree : CollisionFree all) (h : registry.Attenuates all)
    {call : RegistryCall} (hcall : call ∈ all) : (call.after registry).Attenuates all := by
  have hkeyed := keyed_after h.keyed call
  have hchange := RegistryCall.change registry call
  generalize call.after registry = registry' at hchange hkeyed
  cases hchange with
  | nothing => exact h
  | revocation digest => exact ⟨hkeyed, h.sealed, h.bounded⟩
  | admission envelope presented admissible roots externalRoots =>
    have hkept : ∀ (digest : String) (f : ConstraintEnvelope),
        registry.envelopes[digest]? = some f →
          (registry.envelopes.insert envelope.digestValue envelope)[digest]? = some f :=
      fun digest f ↦ h.getElem?_insert hfree hcall presented admissible.sealed
    -- what is admitted now is the envelope of the call or was admitted before
    have hcases : ∀ (digest : String) (e : ConstraintEnvelope),
        (registry.envelopes.insert envelope.digestValue envelope)[digest]? = some e →
          envelope = e ∨ registry.envelopes[digest]? = some e := by
      intro digest e he
      rw [ExtTreeMap.getElem?_insert] at he
      split at he
      · exact .inl (Option.some.inj he)
      · exact .inr he
    refine ⟨hkeyed, fun digest e he ↦ ?_, fun digest e he parent hparent ↦ ?_⟩
    · rcases hcases digest e he with rfl | he
      · exact ⟨admissible.sealed, call, hcall, presented⟩
      · exact h.sealed digest e he
    · rcases hcases digest e he with rfl | he
      · obtain ⟨f, hf, hbroader⟩ := admissible.bounded parent hparent
        exact ⟨f, hkept parent f hf, ConstraintEnvelope.isNoBroaderThan_iff.mp hbroader⟩
      · obtain ⟨f, hf, hwithin⟩ := h.bounded digest e he parent hparent
        exact ⟨f, hkept parent f hf, hwithin⟩

theorem Attenuates.afterRegistryCalls (hfree : CollisionFree all) (h : registry.Attenuates all)
    (calls : List RegistryCall) (hcalls : calls ⊆ all) :
    (afterRegistryCalls registry calls).Attenuates all := by
  induction calls generalizing registry with
  | nil => exact h
  | cons call calls ih =>
    rw [List.cons_subset] at hcalls
    exact ih (h.after hfree hcalls.1) hcalls.2

/-- Along a chain of parents everything is admitted and only widens. -/
theorem Attenuates.within_ancestor (h : registry.Attenuates all) {digest : String}
    {envelope ancestor : ConstraintEnvelope}
    (henvelope : registry.envelopes[digest]? = some envelope)
    (hancestor : registry.Ancestor envelope ancestor) :
    registry.envelopes[ancestor.digestValue]? = some ancestor ∧ envelope.Within ancestor := by
  induction hancestor with
  | refl =>
    rw [h.keyed digest envelope henvelope]
    exact ⟨henvelope, .refl envelope⟩
  | tail _ hlead ih =>
    obtain ⟨hadmitted, hwithin⟩ := ih
    obtain ⟨parent, hparent, hfound⟩ := parentOf_eq_some.mp hlead
    obtain ⟨f, hf, hstep⟩ := h.bounded _ _ hadmitted parent hparent
    obtain rfl := Option.some.inj (hfound.symm.trans hf)
    rw [h.keyed parent _ hfound]
    exact ⟨hfound, hwithin.trans hstep⟩

end AuthorityRegistry

/-- **Delegation only attenuates.** After any calls, whatever is authorized under an admitted
envelope is authorized under each of its ancestors at the same time, and its budgets, hosts and
scopes are within those of the ancestor, whose gates it keeps. -/
theorem delegation_attenuates (calls : List RegistryCall) (hfree : CollisionFree calls)
    {digest : String} {envelope ancestor : ConstraintEnvelope} :
    let registry := afterRegistryCalls emptyRegistry calls
    registry.envelopes[digest]? = some envelope →
    registry.Ancestor envelope ancestor →
    (∀ key action target now : String,
      (∃ token, registry.authorize key digest action target now = .ok token) →
      ∃ token, registry.authorize key ancestor.digestValue action target now = .ok token) ∧
    envelope.budgets.isWithin ancestor.budgets = true ∧
    envelope.networkAllowlist ⊆ ancestor.networkAllowlist ∧
    envelope.dataScopes ⊆ ancestor.dataScopes ∧
    envelope.secretScopes ⊆ ancestor.secretScopes ∧
    ancestor.humanGates ⊆ envelope.humanGates := by
  intro registry henvelope hancestor
  have h : registry.Attenuates calls := AuthorityRegistry.attenuates_emptyRegistry.afterRegistryCalls
    hfree calls (List.Subset.refl calls)
  obtain ⟨hadmitted, hwithin⟩ := h.within_ancestor henvelope hancestor
  refine ⟨?_, hwithin.budgets, hwithin.network, hwithin.data, hwithin.secrets, hwithin.gates⟩
  rintro key action target now ⟨token, htoken⟩
  obtain ⟨found, path, hfound, hpath, hgrants, -⟩ :=
    AuthorityRegistry.authorize_eq_ok.mp htoken
  obtain ⟨hfound, hlive⟩ := AuthorityRegistry.envelope_eq_ok.mp hfound
  obtain rfl := Option.some.inj (hfound.symm.trans henvelope)
  -- a marked ancestor of the ancestor would be one of the envelope
  have hlive' : registry.isRevoked ancestor = false := by
    rw [← Bool.not_eq_true, AuthorityRegistry.isRevoked_eq_true_iff h.keyed hadmitted]
    rintro ⟨marked, hmarked, hmark⟩
    have hrevoked := (AuthorityRegistry.isRevoked_eq_true_iff h.keyed henvelope).mpr
      ⟨marked, hancestor.trans hmarked, hmark⟩
    exact nomatch hrevoked.symm.trans hlive
  exact ⟨_, AuthorityRegistry.authorize_eq_ok.mpr ⟨ancestor, path,
    AuthorityRegistry.envelope_eq_ok.mpr ⟨hadmitted, hlive'⟩, hpath, hwithin.grants hgrants, rfl⟩⟩

/-! ## A root and a child, and a root minted again -/

/-- A root is minted and a child of it is registered. -/
def delegatedCalls (root child : ConstraintEnvelope) : List RegistryCall :=
  [.mintRoot root.sealed "owner" "REF-1" sampleTime, .register child.sealed none]

/-- Two roots are minted. -/
def mintedCalls (root again : ConstraintEnvelope) : List RegistryCall :=
  [.mintRoot root.sealed "owner" "REF-1" sampleTime,
    .mintRoot again.sealed "owner" "REF-1" sampleTime]

variable {root child again : ConstraintEnvelope}

private theorem exists_mintRoot_sample {registry : AuthorityRegistry}
    (hrevoked : registry.revoked = []) (hauthorities : registry.revokedAuthorities = [])
    (hroot : root.parentEnvelopeDigest = none) :
    ∃ registry', registry.mintRoot root.sealed "owner" "REF-1" sampleTime = .ok registry' ∧
      registry'.envelopes = registry.envelopes.insert root.contentDigest root.sealed ∧
      registry'.revoked = [] ∧ registry'.revokedAuthorities = [] :=
  AuthorityRegistry.exists_mintRoot hrevoked hauthorities root "owner" "REF-1" sampleTime hroot
    (by decide) (by decide) (by decide)

private theorem collisionFree_delegatedCalls (hne : child.contentDigest ≠ root.contentDigest) :
    CollisionFree (delegatedCalls root child) := by
  have hpresents : ∀ call ∈ delegatedCalls root child, ∀ e, call.presents = some e →
      e = root.sealed ∨ e = child.sealed := by
    intro call hcall e he
    rcases List.mem_pair.mp hcall with rfl | rfl
    · exact .inl (Option.some.inj he).symm
    · exact .inr (Option.some.inj he).symm
  intro call hcall other hother e f he hf hdigest
  rcases hpresents call hcall e he with rfl | rfl <;>
    rcases hpresents other hother f hf with rfl | rfl
  · rfl
  · exact absurd hdigest.symm hne
  · exact absurd hdigest hne
  · rfl

private theorem afterRegistryCalls_delegatedCalls (hroot : root.parentEnvelopeDigest = none)
    (hchild : child.parentEnvelopeDigest = some root.contentDigest)
    (hbroader : child.isNoBroaderThan root = true)
    (hne : child.contentDigest ≠ root.contentDigest) :
    let registry := afterRegistryCalls emptyRegistry (delegatedCalls root child)
    registry.envelope child.contentDigest = .ok child.sealed ∧
      registry.parentOf child.sealed = some root.sealed := by
  obtain ⟨first, hmint, hfirst, hrevoked, hauthorities⟩ :=
    exists_mintRoot_sample (show emptyRegistry.revoked = [] from rfl) rfl hroot
  have hadmitted : first.envelopes[root.sealed.digestValue]? = some root.sealed := by
    rw [hfirst]
    exact ExtTreeMap.getElem?_insert_self
  obtain ⟨second, hregister, hsecond, hrevoked', hauthorities'⟩ :=
    AuthorityRegistry.exists_register hrevoked hauthorities hadmitted child hchild hbroader
  have hcalls : afterRegistryCalls emptyRegistry (delegatedCalls root child) = second := by
    simp only [afterRegistryCalls, delegatedCalls, List.foldl_cons, List.foldl_nil,
      RegistryCall.after, RegistryCall.run, hmint, hregister]
  rw [hcalls]
  constructor
  · refine AuthorityRegistry.envelope_eq_ok.mpr
      ⟨?_, AuthorityRegistry.isRevoked_eq_false hrevoked' hauthorities' _⟩
    rw [hsecond]
    exact ExtTreeMap.getElem?_insert_self
  · refine AuthorityRegistry.parentOf_eq_some.mpr ⟨root.contentDigest, hchild, ?_⟩
    rw [hsecond, ExtTreeMap.getElem?_insert, if_neg]
    · exact hadmitted
    · exact fun heq ↦ hne (Std.LawfulEqCmp.eq_of_compare heq)

/-- Whether or not the digests of the two roots are the same, something is kept under both, and if
the roots grant the same, so does what is kept. -/
private theorem afterRegistryCalls_mintedCalls (hroot : root.parentEnvelopeDigest = none)
    (hagain : again.parentEnvelopeDigest = none)
    (hsame : root.authorityDocument = again.authorityDocument) :
    let registry := afterRegistryCalls emptyRegistry (mintedCalls root again)
    registry.envelopes[again.contentDigest]? = some again.sealed ∧
      ∃ found, (afterRegistryCalls (registry.revoke again.contentDigest)
          []).envelopes[root.contentDigest]? = some found ∧
        found.authorityKey = again.sealed.authorityKey := by
  obtain ⟨first, hmint, hfirst, hrevoked, hauthorities⟩ :=
    exists_mintRoot_sample (show emptyRegistry.revoked = [] from rfl) rfl hroot
  obtain ⟨second, hremint, hsecond, -⟩ := exists_mintRoot_sample hrevoked hauthorities hagain
  have hcalls : afterRegistryCalls emptyRegistry (mintedCalls root again) = second := by
    simp only [afterRegistryCalls, mintedCalls, List.foldl_cons, List.foldl_nil,
      RegistryCall.after, RegistryCall.run, hmint, hremint]
  rw [hcalls]
  simp only [afterRegistryCalls, List.foldl_nil, AuthorityRegistry.revoke, hsecond]
  refine ⟨ExtTreeMap.getElem?_insert_self, ?_⟩
  rw [ExtTreeMap.getElem?_insert, hfirst, ExtTreeMap.getElem?_insert_self]
  split
  · exact ⟨again.sealed, rfl, rfl⟩
  · exact ⟨root.sealed, rfl, congrArg jsonDigest hsame⟩

end Calls

/-- A child of the sample root. -/
def sampleChild : ConstraintEnvelope :=
  { sampleEnvelope with
    envelopeId := "AUTH-2"
    parentEnvelopeDigest :=
      some "sha256:6e4b36ceba770a07363b103e2fa81b12ef09b09538ba72944769edbe6d162dcd"
    valid := by decide +kernel }

/-- The sample root under another name. -/
def renamedEnvelope : ConstraintEnvelope :=
  { sampleEnvelope with
    envelopeId := "AUTH-3"
    valid := by decide +kernel }

set_option maxRecDepth 8000

private theorem contentDigest_sampleChild_ne :
    sampleChild.contentDigest ≠ sampleEnvelope.contentDigest := by
  rw [contentDigest_sampleEnvelope, instHash256_eq]
  decide

/-- What the child is authorized for, the root is. -/
theorem sampleChild_attenuates :
    let registry := afterRegistryCalls emptyRegistry (delegatedCalls sampleEnvelope sampleChild)
    (∃ token, registry.authorize "KEY" sampleChild.contentDigest "write" "out" sampleTime =
      .ok token) ∧
    ∃ token, registry.authorize "KEY" sampleEnvelope.sealed.digestValue "write" "out" sampleTime =
      .ok token := by
  intro registry
  have hchild : sampleChild.parentEnvelopeDigest = some sampleEnvelope.contentDigest := by
    rw [contentDigest_sampleEnvelope]
    rfl
  obtain ⟨hknown, hparent⟩ := afterRegistryCalls_delegatedCalls rfl hchild (by decide)
    contentDigest_sampleChild_ne
  have hgrants : AuthorityRegistry.Grants sampleChild "write" "out" sampleTime :=
    ⟨grants_sampleEnvelope.live, grants_sampleEnvelope.allowed, grants_sampleEnvelope.notDenied,
      grants_sampleEnvelope.inScope⟩
  have htoken : ∃ token, registry.authorize "KEY" sampleChild.contentDigest "write" "out"
      sampleTime = .ok token :=
    ⟨_, AuthorityRegistry.authorize_eq_ok.mpr ⟨sampleChild.sealed, "out", hknown,
      by decide, hgrants.sealed, rfl⟩⟩
  exact ⟨htoken, (delegation_attenuates _
    (collisionFree_delegatedCalls contentDigest_sampleChild_ne)
    (AuthorityRegistry.envelope_eq_ok.mp hknown).1 (.single hparent)).1 _ _ _ _ htoken⟩

/-- The sample root is minted and minted again under another name, and the second one revoked. What
is kept under the digest of the first one is not authorized any more. -/
theorem renamedEnvelope_revoked :
    ¬∃ token, (afterRegistryCalls ((afterRegistryCalls emptyRegistry
        (mintedCalls sampleEnvelope renamedEnvelope)).revoke renamedEnvelope.contentDigest)
          []).authorize "KEY" sampleEnvelope.contentDigest "write" "out" sampleTime =
      .ok token := by
  rintro ⟨token, htoken⟩
  obtain ⟨hadmitted, found, hfound, hauthority⟩ :=
    afterRegistryCalls_mintedCalls (show sampleEnvelope.parentEnvelopeDigest = none from rfl)
      (show renamedEnvelope.parentEnvelopeDigest = none from rfl) rfl
  exact revocation_is_permanent _ [] hadmitted _ found hfound (.inr (.inr hauthority)) _ _ _ _ token
    htoken

end HiveMind
