import Mathlib.Data.Finset.Card
import Mathlib.Data.Finset.Image
import Mathlib.Data.Finset.Dedup
import ZeroSecret.Webauthn.Authentication

/-!
# `zs-webauthn`: recovery by a quorum

`recovery.rs`. Approvals are counted by the authenticator that gave them; the
module promises distinct bearers. The two counts differ as soon as one bearer
has several authenticators, which registration allows.
-/

namespace ZeroSecret.Webauthn

open Crypto.AuthenticatorProof

def minimumThreshold : Nat := 2

/-- Built from the claims of a ceremony alone. -/
structure RecoveryApproval where
  fromVerifiedAuthentication ::
  claims : AuthenticationClaims
deriving DecidableEq

def RecoveryApproval.credentialId (approval : RecoveryApproval) : Bytes :=
  approval.claims.credentialId

inductive RecoveryError where
  | thresholdBelowMinimum
  | quorumNotReached (distinct threshold : Nat)
deriving DecidableEq

def RecoveryError.toString : RecoveryError → String
  | .thresholdBelowMinimum =>
      s!"seuil de récupération inférieur au minimum absolu ({minimumThreshold}) — refusé"
  | .quorumNotReached distinct threshold =>
      s!"quorum non atteint : {distinct} porteur(s) distinct(s) sur {threshold} requis"

/-- The vector of the source is in the order of a hash set, which is left
open. -/
structure RecoveryOutcome where
  approvingCredentialIds : Finset Bytes
deriving DecidableEq

/-- The hash set that is counted. -/
def approvingCredentials (approvals : List RecoveryApproval) : Finset Bytes :=
  (approvals.map RecoveryApproval.credentialId).toFinset

def verifyQuorum (approvals : List RecoveryApproval) (threshold : Nat) :
    Except RecoveryError RecoveryOutcome :=
  if threshold < minimumThreshold then .error .thresholdBelowMinimum
  else
    let distinct := approvingCredentials approvals
    if distinct.card < threshold then .error (.quorumNotReached distinct.card threshold)
    else .ok ⟨distinct⟩

/-- The persons behind the approvals. -/
def bearers (approvals : List RecoveryApproval) : Finset String :=
  (approvals.map fun approval => approval.claims.subjectId).toFinset

theorem mem_approvingCredentials {approvals : List RecoveryApproval} {id : Bytes} :
    id ∈ approvingCredentials approvals ↔ ∃ a ∈ approvals, a.credentialId = id := by
  simp [approvingCredentials]

theorem mem_bearers {approvals : List RecoveryApproval} {subjectId : String} :
    subjectId ∈ bearers approvals ↔ ∃ a ∈ approvals, a.claims.subjectId = subjectId := by
  simp [bearers]

theorem verifyQuorum_eq_ok_iff {approvals : List RecoveryApproval} {threshold : Nat}
    {outcome : RecoveryOutcome} :
    verifyQuorum approvals threshold = .ok outcome ↔
      2 ≤ threshold ∧ threshold ≤ (approvingCredentials approvals).card ∧
        outcome = ⟨approvingCredentials approvals⟩ := by
  unfold verifyQuorum
  constructor
  · intro h
    split at h
    · cases h
    · rename_i hmin
      simp only at h
      split at h
      · cases h
      · rename_i hreached
        exact ⟨Nat.le_of_not_lt hmin, Nat.le_of_not_lt hreached, (Except.ok.inj h).symm⟩
  · rintro ⟨hmin, hreached, rfl⟩
    rw [if_neg (show ¬ threshold < minimumThreshold from Nat.not_lt.mpr hmin)]
    exact if_neg (Nat.not_lt.mpr hreached)

/-- A refusal names the number of authenticators it counted. -/
theorem verifyQuorum_eq_quorumNotReached_iff {approvals : List RecoveryApproval}
    {threshold distinct required : Nat} :
    verifyQuorum approvals threshold = .error (.quorumNotReached distinct required) ↔
      2 ≤ threshold ∧ (approvingCredentials approvals).card < threshold ∧
        distinct = (approvingCredentials approvals).card ∧ required = threshold := by
  unfold verifyQuorum
  constructor
  · intro h
    split at h
    · cases h
    · rename_i hmin
      simp only at h
      split at h
      · rename_i hshort
        obtain ⟨rfl, rfl⟩ := RecoveryError.quorumNotReached.inj (Except.error.inj h)
        exact ⟨Nat.le_of_not_lt hmin, hshort, rfl, rfl⟩
      · cases h
  · rintro ⟨hmin, hshort, rfl, rfl⟩
    rw [if_neg (show ¬ required < minimumThreshold from Nat.not_lt.mpr hmin)]
    exact if_pos hshort

/-! ## Order and repetition -/

theorem approvingCredentials_congr {approvals approvals' : List RecoveryApproval}
    (h : ∀ a, a ∈ approvals' ↔ a ∈ approvals) :
    approvingCredentials approvals' = approvingCredentials approvals := by
  ext id
  rw [mem_approvingCredentials, mem_approvingCredentials]
  constructor
  · rintro ⟨a, ha, rfl⟩
    exact ⟨a, (h a).mp ha, rfl⟩
  · rintro ⟨a, ha, rfl⟩
    exact ⟨a, (h a).mpr ha, rfl⟩

/-- Only which approvals there are counts. -/
theorem verifyQuorum_congr {approvals approvals' : List RecoveryApproval}
    (h : ∀ a, a ∈ approvals' ↔ a ∈ approvals) (threshold : Nat) :
    verifyQuorum approvals' threshold = verifyQuorum approvals threshold := by
  rw [verifyQuorum, verifyQuorum, approvingCredentials_congr h]

/-! ## Bearers -/

/-- With one authenticator for each bearer the two counts agree as far as the
quorum needs them. -/
theorem card_approvingCredentials_le {approvals : List RecoveryApproval}
    (h : ∀ a ∈ approvals, ∀ b ∈ approvals, a.claims.subjectId = b.claims.subjectId →
      a.credentialId = b.credentialId) :
    (approvingCredentials approvals).card ≤ (bearers approvals).card := by
  have hbearer : ∀ id ∈ approvingCredentials approvals,
      ∃ subjectId ∈ bearers approvals, ∃ a ∈ approvals,
        a.credentialId = id ∧ a.claims.subjectId = subjectId := by
    intro id hid
    obtain ⟨a, ha, hcred⟩ := mem_approvingCredentials.mp hid
    exact ⟨a.claims.subjectId, mem_bearers.mpr ⟨a, ha, rfl⟩, a, ha, hcred, rfl⟩
  choose bearer hmem approval happroval hcred hsubject using hbearer
  refine Finset.card_le_card_of_injOn
    (fun id => if hid : id ∈ approvingCredentials approvals then bearer id hid else "") ?_ ?_
  · intro id hid
    simp only [dif_pos (Finset.mem_coe.mp hid)]
    exact hmem id hid
  · intro id hid id' hid' hsame
    simp only [dif_pos (Finset.mem_coe.mp hid), dif_pos (Finset.mem_coe.mp hid')] at hsame
    rw [← hcred id hid, ← hcred id' hid']
    refine h _ (happroval id hid) _ (happroval id' hid') ?_
    rw [hsubject, hsubject, hsame]

/-- What the module promises of a quorum: the absolute minimum, that many
persons, and no weight to order or repetition. -/
structure QuorumOfBearers (approvals : List RecoveryApproval) (threshold : Nat) : Prop where
  minimum : ∀ outcome, verifyQuorum approvals threshold = .ok outcome → 2 ≤ threshold
  distinct : ∀ outcome, verifyQuorum approvals threshold = .ok outcome →
    threshold ≤ (bearers approvals).card
  sameApprovals : ∀ approvals' : List RecoveryApproval, (∀ a, a ∈ approvals' ↔ a ∈ approvals) →
    verifyQuorum approvals' threshold = verifyQuorum approvals threshold

theorem quorumOfBearers_of_enough {approvals : List RecoveryApproval} {threshold : Nat}
    (h : 2 ≤ threshold → threshold ≤ (approvingCredentials approvals).card →
      threshold ≤ (bearers approvals).card) : QuorumOfBearers approvals threshold where
  minimum := fun _ hok => (verifyQuorum_eq_ok_iff.mp hok).1
  distinct := by
    intro outcome hok
    obtain ⟨hmin, hreached, -⟩ := verifyQuorum_eq_ok_iff.mp hok
    exact h hmin hreached
  sameApprovals := fun _ hsame => verifyQuorum_congr hsame threshold

theorem QuorumOfBearers.enough {approvals : List RecoveryApproval} {threshold : Nat}
    (h : QuorumOfBearers approvals threshold) (hmin : 2 ≤ threshold)
    (hreached : threshold ≤ (approvingCredentials approvals).card) :
    threshold ≤ (bearers approvals).card :=
  h.distinct _ (verifyQuorum_eq_ok_iff.mpr ⟨hmin, hreached, rfl⟩)

/-- **The promise is kept unless too few persons approved with enough
authenticators.** -/
theorem quorumOfBearers_iff (approvals : List RecoveryApproval) (threshold : Nat) :
    QuorumOfBearers approvals threshold ↔
      ¬(2 ≤ threshold ∧ (bearers approvals).card < threshold ∧
        threshold ≤ (approvingCredentials approvals).card) := by
  constructor
  · rintro h ⟨hmin, hfew, hreached⟩
    exact absurd (h.enough hmin hreached) (Nat.not_le.mpr hfew)
  · intro h
    refine quorumOfBearers_of_enough fun hmin hreached => ?_
    exact Nat.le_of_not_lt fun hfew => h ⟨hmin, hfew, hreached⟩

/-- One authenticator for each bearer is enough for it. -/
theorem quorumOfBearers_of_one_each {approvals : List RecoveryApproval}
    (h : ∀ a ∈ approvals, ∀ b ∈ approvals, a.claims.subjectId = b.claims.subjectId →
      a.credentialId = b.credentialId) (threshold : Nat) : QuorumOfBearers approvals threshold :=
  quorumOfBearers_of_enough fun _ hreached =>
    Nat.le_trans hreached (card_approvingCredentials_le h)

/-- One bearer with two authenticators, each used in a ceremony of its own,
reaches a quorum of two. -/
theorem two_authenticators_reach_quorum {V : Verifiers} {read : Bytes → Option ClientData}
    {first second : AuthenticationCeremonyInput} {claims claims' : AuthenticationClaims}
    (hfirst : verifyAuthenticationCeremony V read first = .ok claims)
    (hsecond : verifyAuthenticationCeremony V read second = .ok claims')
    (hsubject : second.credential.subjectId = first.credential.subjectId)
    (hcredential : second.credential.credentialId ≠ first.credential.credentialId) :
    verifyQuorum [⟨claims⟩, ⟨claims'⟩] 2 =
        .ok ⟨{first.credential.credentialId, second.credential.credentialId}⟩ ∧
      (bearers [⟨claims⟩, ⟨claims'⟩]).card = 1 := by
  obtain ⟨parsed, -, -, rfl⟩ := verifyAuthenticationCeremony_eq_ok_iff.mp hfirst
  obtain ⟨parsed', -, -, rfl⟩ := verifyAuthenticationCeremony_eq_ok_iff.mp hsecond
  constructor
  · refine verifyQuorum_eq_ok_iff.mpr ⟨Nat.le_refl 2, ?_, ?_⟩
    · simp [approvingCredentials, RecoveryApproval.credentialId, Finset.card_pair hcredential.symm]
    · simp [approvingCredentials, RecoveryApproval.credentialId]
  · simp [bearers, hsubject]

def approvalOf (subjectId : String) (credentialId : Bytes) : RecoveryApproval :=
  ⟨⟨subjectId, credentialId, .aal2, "webauthn/device-bound", 1⟩⟩

/-- One person with two authenticators is taken for two. -/
theorem two_authenticators_of_one_bearer :
    ¬ QuorumOfBearers [approvalOf "subject-1" [0x61], approvalOf "subject-1" [0x62]] 2 := by
  intro h
  exact absurd (h.enough (by decide) (by decide)) (by decide)

end ZeroSecret.Webauthn
