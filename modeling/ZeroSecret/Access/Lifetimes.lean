import ZeroSecret.Access.Seconds
import ZeroSecret.Audit.Fidelity
import ZeroSecret.Issuance.Binding

/-!
# One lifetime, four conversions

The lifetime of a decision is sealed by the policy engine, asked for by the
issuer, recorded with the credential and recorded with the decision, each time
by a conversion of its own. A negative number of seconds is zero to the seal,
itself to the lease, absent from one record and wrapped in the other; 32 bits
and the nanoseconds do the rest. The decisions for which the four agree follow
from one arithmetic condition on the message.
-/

namespace ZeroSecret.Access

open Audit Crypto Crypto.AuditSeal Crypto.DecisionSeal Policy Issuance Interleave

/-! ## Where a lifetime ends up -/

/-- The lifetime an event is sent with; absence counts as zero. -/
def sentTtl (raw : RawEvent) : ℕ :=
  ((raw.decision.bind (·.grantedTtlSeconds)).map UInt32.toNat).getD 0

/-- The lifetime in a sealed document. -/
def sealedTtl (document : WireDocument) : ℕ :=
  (document.decision.bind (·.grantedTtlSeconds)).getD 0

/-- `t` is sent with an event, or read in the octets sealed for it. -/
inductive Carries (P : Primitives) (raw : RawEvent) : ℕ → Prop
  | sent : Carries P raw (sentTtl raw)
  | sealed {sealer : AuditSealer} {hsm : HsmAnswer} {head : ChainHead} {prevHash : Bytes}
      {eventId : String} {occurredAt : Int} {out : Bytes} {document : WireDocument}
      (hseal : SealerService.seal P sealer hsm
        (sealRequestOf raw head prevHash eventId occurredAt) = .ok out)
      (hdocument : WireDocument.fromSlice out = some document) :
      Carries P raw (sealedTtl document)

/-- The lifetimes a decision leads to: that of a lease, that of the credential
recorded with it, that of the decision recorded by the broker. -/
inductive LeadsTo (P : Primitives) (engine : PolicyEngine) (d : DecisionResponse) : ℤ → Prop
  | leased {order : EmissionOrder} {path : String} {ttl : Int64} (hd : order.decision = some d)
      (h : Prog.Issues (answers P engine) (Issuer.emit order) (.issueLease path ttl)) :
      LeadsTo P engine d ttl.toInt
  | issued {order : EmissionOrder} {acts : List (Act IssuerResp)} {result : Issuance.Result}
      {t : ℕ} (hd : order.decision = some d)
      (hacts : Performs (Issuer.emit order) acts (.ret (.ok result)))
      (hanswers : ∀ act ∈ acts, answers P engine act.op act.answer)
      (hallowed : result.allowed = true)
      (h : Carries P (credentialIssuedEvent order.authorityDomain order.resourceType
        order.resourceId result.event) t) :
      LeadsTo P engine d t
  | decided {requestId : String} {body : AccessRequestBody} {verifyResp : VerifyAssertionResponse}
      {t : ℕ}
      (h : Carries P (policyDecidedEvent requestId body verifyResp
        (Broker.Decision.ofResponse d).allowed d) t) :
      LeadsTo P engine d t

/-- **The lifetime that is signed** is the only one a decision leads to. -/
def SignedLifetime (P : Primitives) (engine : PolicyEngine) (d : DecisionResponse) : Prop :=
  ∃ ts f, d.issuedAt = some ts ∧ decisionFields d (rfc3339FromSeconds ts.seconds) = .ok f ∧
    P.ecdsaP256Sha256Fixed engine.verifyingKey.raw (signedMessage f) d.decisionSignature = true ∧
    ∀ t, LeadsTo P engine d t → t = f.maxTtlSeconds

/-! ## The condition -/

/-- A number of seconds that 32 bits hold, and nanoseconds that do not change
it. -/
def Whole (maxTtl : Option ProtoDuration) : Prop :=
  ∀ d, maxTtl = some d → 0 ≤ d.seconds.toInt ∧ d.seconds.toInt < 2 ^ 32 ∧
    (0 ≤ nanoseconds d ∨ d.seconds.toInt = 0) ∧
    ReadAs (nanoseconds d).natAbs d.seconds.toInt.toNat

/-- A negative number of seconds whose low 32 bits are read as zero. -/
def Vanishing (maxTtl : Option ProtoDuration) : Prop :=
  ∃ d, maxTtl = some d ∧ d.seconds.toInt < 0 ∧
    ∃ k ≤ 2, ReadAs (nanoseconds d).natAbs (k * 2 ^ 32)

/-- A lifetime of a refusal is only recorded. -/
def Kept (d : DecisionResponse) : Prop :=
  Whole d.maxTtl ∨ d.effect ≠ effectAllow ∧ Vanishing d.maxTtl

/-! ## What each conversion makes of it -/

variable {P : Primitives} {engine : PolicyEngine} {d : DecisionResponse}

/-- Sealing keeps the lifetime of an event. -/
theorem carries_iff {raw : RawEvent} {t : ℕ} : Carries P raw t ↔ t = sentTtl raw := by
  constructor
  · intro h
    cases h with
    | sent => rfl
    | sealed hseal hdocument =>
        obtain ⟨actor, signature, -, -, hparsed⟩ := document_of_seal hseal
        obtain rfl := Option.some.inj (hdocument.symm.trans hparsed)
        rw [sealedTtl, sentTtl, RawEvent.document]
        cases raw.decision with
        | none => rfl
        | some decision => rfl
  · rintro rfl
    exact .sent

theorem sentTtl_policyDecided {requestId : String} {body : AccessRequestBody}
    {verifyResp : VerifyAssertionResponse} {allowed : Bool} :
    (sentTtl (policyDecidedEvent requestId body verifyResp allowed d) : ℤ) =
      (d.maxTtl.map fun ttl => durationSeconds ttl % 2 ^ 32).getD 0 := by
  rw [sentTtl, policyDecidedEvent]
  cases httl : d.maxTtl with
  | none => rfl
  | some ttl => exact toNat_ofNat_emod _

/-- The issuer records what 32 bits hold of a positive lifetime. -/
theorem sentTtl_credentialIssued {authorityDomain resourceType resourceId : String}
    {event : IssuedCredentialEvent} :
    (sentTtl (credentialIssuedEvent authorityDomain resourceType resourceId event) : ℤ) =
      max 0 event.grantedTtlSeconds.toInt % 2 ^ 32 := by
  rw [sentTtl, credentialIssuedEvent]
  by_cases hpos : 0 < event.grantedTtlSeconds.toInt
  · simp only [Issuance.grantedTtl, if_pos hpos, Option.bind_some, Option.map_some,
      Option.getD_some, UInt32.toNat_ofNat']
    rw [max_eq_right hpos.le, Int.natCast_mod, Int.toNat_of_nonneg hpos.le]
    rfl
  · simp only [Issuance.grantedTtl, if_neg hpos, Option.bind_some, Option.map_none,
      Option.getD_none]
    rw [max_eq_left (not_lt.mp hpos)]
    rfl

/-- The least an order says. -/
def bareOrder (d : DecisionResponse) : EmissionOrder :=
  ⟨"db.connect", "", "", "", some d, "", "", "", ""⟩

/-- Everything the issuer calls succeeds. -/
def smoothAnswer (P : Primitives) (engine : PolicyEngine) :
    (op : IssuerOp) → Unit → IssuerResp op × Unit
  | .verifyDecision d, s => (.ok (engine.verifyDecision P (some d)), s)
  | .markConsumed _, s => (.ok false, s)
  | .newV7, s => (.ok "", s)
  | .issueLease _ _, s => (.ok ⟨"", 0⟩, s)

theorem smoothAnswer_answers (op : IssuerOp) (s : Unit) :
    answers P engine op (smoothAnswer P engine op s).1 := by
  cases op with
  | verifyDecision d => exact Or.inl rfl
  | markConsumed decisionHash => trivial
  | newV7 => trivial
  | issueLease path ttl => trivial

theorem bareOrder_issued (hvalid : (engine.verifyDecision P (some d)).valid = true)
    (hallow : d.effect = effectAllow) :
    ∃ acts result, Performs (Issuer.emit (bareOrder d)) acts (.ret (.ok result)) ∧
      (∀ act ∈ acts, answers P engine act.op act.answer) ∧ result.allowed = true := by
  have hrun : ((Issuer.emit (bareOrder d)).run (smoothAnswer P engine) ()).1 =
      ((Issuer.reported (bareOrder d) d (engine.verifyDecision P (some d))).run
        (smoothAnswer P engine) ()).1 := rfl
  have hreported : Issuer.reported (bareOrder d) d (engine.verifyDecision P (some d)) =
      Issuer.consume (bareOrder d) d := by
    unfold Issuer.reported
    rw [if_neg (by simpa using hvalid), if_neg (not_not_intro hallow)]
  have hperforms := Prog.performs_trace (smoothAnswer P engine) (Issuer.emit (bareOrder d)) ()
  rw [hrun, hreported] at hperforms
  refine ⟨_, _, hperforms, ?_, rfl⟩
  intro act hact
  obtain ⟨s, hs⟩ := Prog.mem_trace hact
  rw [hs]
  exact smoothAnswer_answers act.op s

/-- **The lifetimes an accepted decision leads to.** -/
theorem leadsTo_iff (hvalid : (engine.verifyDecision P (some d)).valid = true) {t : ℤ} :
    LeadsTo P engine d t ↔
      t = (d.maxTtl.map fun ttl => durationSeconds ttl % 2 ^ 32).getD 0 ∨
      d.effect = effectAllow ∧
        (t = (ttlSecondsOf d).toInt ∨ t = max 0 (ttlSecondsOf d).toInt % 2 ^ 32) := by
  constructor
  · intro h
    cases h with
    | leased hd h =>
        obtain ⟨d', hd', -, hallow, -, -, rfl⟩ := emit_issues_iff.mp h
        obtain rfl := Option.some.inj (hd.symm.trans hd')
        exact Or.inr ⟨hallow, Or.inl rfl⟩
    | issued hd hacts _ hallowed h =>
        obtain ⟨d', eventId, lease, hd', hallow, hevent⟩ :=
          (emit_returns _).of_performs hacts hallowed
        obtain rfl := Option.some.inj (hd.symm.trans hd')
        rw [carries_iff.mp h, sentTtl_credentialIssued, hevent]
        exact Or.inr ⟨hallow, Or.inr rfl⟩
    | decided h =>
        rw [carries_iff.mp h, sentTtl_policyDecided]
        exact Or.inl rfl
  · rintro (rfl | ⟨hallow, rfl | rfl⟩)
    · rw [← sentTtl_policyDecided]
      exact @LeadsTo.decided P engine d "" ⟨none, "", "", none, ⟨none, "", "", ""⟩, none, "", ""⟩
        ⟨true, "", "", "", ""⟩ _ .sent
    · exact @LeadsTo.leased P engine d (bareOrder d) _ _ rfl
        (emit_issues_iff.mpr ⟨d, rfl, hvalid, hallow, rfl, rfl, rfl⟩)
    · obtain ⟨acts, result, hacts, hanswers, hallowed⟩ := bareOrder_issued hvalid hallow
      obtain ⟨d', eventId, lease, hd', -, hevent⟩ :=
        (emit_returns _).of_performs hacts hallowed
      obtain rfl := Option.some.inj hd'
      have httl : result.event.grantedTtlSeconds = ttlSecondsOf d :=
        congrArg IssuedCredentialEvent.grantedTtlSeconds hevent
      rw [← httl, ← sentTtl_credentialIssued]
      exact .issued rfl hacts hanswers hallowed .sent

/-! ## When they are one -/

theorem maxTtlSeconds_eq : (maxTtlSeconds d.maxTtl : ℤ) = max 0 (ttlSecondsOf d).toInt := by
  rw [maxTtlSeconds, ttlSecondsOf]
  cases d.maxTtl with
  | none => rfl
  | some ttl => exact Int.ofNat_toNat _ |>.trans (max_comm _ _)

/-- The record of the broker has the sealed lifetime. -/
theorem decided_eq_iff :
    (d.maxTtl.map fun ttl => durationSeconds ttl % 2 ^ 32).getD 0 =
        max 0 (ttlSecondsOf d).toInt ↔
      Whole d.maxTtl ∨ Vanishing d.maxTtl := by
  rw [ttlSecondsOf, Whole, Vanishing]
  cases d.maxTtl with
  | none => exact iff_of_true rfl (Or.inl fun _ h => by cases h)
  | some ttl =>
      simp only [Option.map_some, Option.getD_some, Option.some.injEq, forall_eq',
        exists_eq_left']
      rcases le_or_gt 0 ttl.seconds.toInt with hnonneg | hneg
      · rw [max_eq_right hnonneg, recorded_eq_seconds_iff hnonneg]
        constructor
        · rintro ⟨hfit, hsign, hread⟩
          exact Or.inl ⟨hnonneg, hfit, hsign, hread⟩
        · rintro (⟨-, h⟩ | ⟨hneg, -⟩)
          · exact h
          · exact absurd hnonneg (not_le.mpr hneg)
      · rw [max_eq_left hneg.le, recorded_eq_zero_iff hneg]
        constructor
        · intro h
          exact Or.inr ⟨hneg, h⟩
        · rintro (⟨hnonneg, -⟩ | ⟨-, h⟩)
          · exact absurd hnonneg (not_le.mpr hneg)
          · exact h

/-- The lease and its record have the sealed lifetime. -/
theorem issued_eq_iff : (ttlSecondsOf d).toInt = max 0 (ttlSecondsOf d).toInt ∧
    max 0 (ttlSecondsOf d).toInt % 2 ^ 32 = max 0 (ttlSecondsOf d).toInt ↔
      0 ≤ (ttlSecondsOf d).toInt ∧ (ttlSecondsOf d).toInt < 2 ^ 32 := by
  omega

theorem seconds_of_whole (h : Whole d.maxTtl) :
    0 ≤ (ttlSecondsOf d).toInt ∧ (ttlSecondsOf d).toInt < 2 ^ 32 := by
  rw [ttlSecondsOf]
  cases httl : d.maxTtl with
  | none => decide
  | some ttl =>
      obtain ⟨hnonneg, hfit, -⟩ := h ttl httl
      exact ⟨hnonneg, hfit⟩

theorem not_vanishing_of_nonneg (h : 0 ≤ (ttlSecondsOf d).toInt) : ¬ Vanishing d.maxTtl := by
  rintro ⟨ttl, httl, hneg, -⟩
  rw [ttlSecondsOf, httl] at h
  exact absurd h (not_le.mpr hneg)

/-- **When the lifetimes are the sealed one.** -/
theorem kept_iff (hvalid : (engine.verifyDecision P (some d)).valid = true) :
    (∀ t, LeadsTo P engine d t → t = maxTtlSeconds d.maxTtl) ↔ Kept d := by
  simp only [leadsTo_iff hvalid, maxTtlSeconds_eq]
  rw [Kept]
  constructor
  · intro h
    have hdecided := decided_eq_iff.mp (h _ (Or.inl rfl))
    by_cases hallow : d.effect = effectAllow
    · have hleased := h _ (Or.inr ⟨hallow, Or.inl rfl⟩)
      left
      exact hdecided.resolve_right (not_vanishing_of_nonneg (by omega))
    · exact hdecided.imp_right fun hvanishing => ⟨hallow, hvanishing⟩
  · rintro (hwhole | ⟨hallow, hvanishing⟩) t ht
    · obtain ⟨hnonneg, hfit⟩ := seconds_of_whole hwhole
      rcases ht with rfl | ⟨-, rfl | rfl⟩
      · exact decided_eq_iff.mpr (Or.inl hwhole)
      · exact (issued_eq_iff.mpr ⟨hnonneg, hfit⟩).1
      · exact (issued_eq_iff.mpr ⟨hnonneg, hfit⟩).2
    · rcases ht with rfl | ⟨hgrants, -⟩
      · exact decided_eq_iff.mpr (Or.inr hvanishing)
      · exact absurd hgrants hallow

/-- What was verified covers the lifetime. -/
theorem sealed_of_valid (hvalid : (engine.verifyDecision P (some d)).valid = true) :
    ∃ ts f, d.issuedAt = some ts ∧ decisionFields d (rfc3339FromSeconds ts.seconds) = .ok f ∧
      P.ecdsaP256Sha256Fixed engine.verifyingKey.raw (signedMessage f) d.decisionSignature =
        true ∧ f.maxTtlSeconds = maxTtlSeconds d.maxTtl := by
  obtain ⟨d', ts, f, hd, hts, hf, hsig⟩ := PolicyEngine.verifyDecision_valid hvalid
  obtain rfl := Option.some.inj hd
  refine ⟨ts, f, hts, hf, hsig, ?_⟩
  rw [decisionFields] at hf
  split at hf
  · cases hf
  · exact congrArg DecisionFields.maxTtlSeconds (Except.ok.inj hf).symm

/-- The fields of the message that the signature of a decision is of. -/
def SealedFields (d : DecisionResponse) (f : DecisionFields) : Prop :=
  ∃ ts, d.issuedAt = some ts ∧ decisionFields d (rfc3339FromSeconds ts.seconds) = .ok f

/-- The signature is not one of two different messages, of these two decisions. -/
def SignsOne (P : Primitives) (engine : PolicyEngine) (d d' : DecisionResponse) : Prop :=
  ∀ f f', SealedFields d f → SealedFields d' f' →
    P.ecdsaP256Sha256Fixed engine.verifyingKey.raw (signedMessage f) d.decisionSignature = true →
    P.ecdsaP256Sha256Fixed engine.verifyingKey.raw (signedMessage f') d.decisionSignature = true →
    signedMessage f = signedMessage f'

/-- A signature of one message covers one lifetime. -/
theorem maxTtlSeconds_of_same_signature {d' : DecisionResponse}
    (hvalid : (engine.verifyDecision P (some d)).valid = true)
    (hvalid' : (engine.verifyDecision P (some d')).valid = true)
    (hsignature : d'.decisionSignature = d.decisionSignature) (hone : SignsOne P engine d d') :
    maxTtlSeconds d.maxTtl = maxTtlSeconds d'.maxTtl := by
  obtain ⟨ts, f, hts, hf, hsig, httl⟩ := sealed_of_valid hvalid
  obtain ⟨ts', f', hts', hf', hsig', httl'⟩ := sealed_of_valid hvalid'
  rw [hsignature] at hsig'
  have hmessage := hone f f' ⟨ts, hts, hf⟩ ⟨ts', hts', hf'⟩ hsig hsig'
  rw [← httl, ← httl', signedMessage_inj hmessage]

/-- **When the signed lifetime is the granted and recorded one**: the seconds
of the message are a number that 32 bits hold and that the nanoseconds do not
change; a refusal may also carry a negative number that vanishes. Two such
decisions with one signature, of one message, lead to one lifetime. -/
theorem signed_lifetime_iff (P : Primitives) (engine : PolicyEngine) (d : DecisionResponse)
    (hvalid : (engine.verifyDecision P (some d)).valid = true) :
    (SignedLifetime P engine d ↔ Kept d) ∧
    ∀ d', (engine.verifyDecision P (some d')).valid = true →
      d'.decisionSignature = d.decisionSignature → SignsOne P engine d d' →
      Kept d → Kept d' → ∀ t t', LeadsTo P engine d t → LeadsTo P engine d' t' → t = t' := by
  refine ⟨?_, ?_⟩
  · constructor
    · rintro ⟨ts, f, hts, hf, -, hall⟩
      obtain ⟨ts', f', hts', hf', -, httl⟩ := sealed_of_valid hvalid
      obtain rfl := Option.some.inj (hts.symm.trans hts')
      obtain rfl := Except.ok.inj (hf.symm.trans hf')
      rw [httl] at hall
      exact (kept_iff hvalid).mp hall
    · intro hkept
      obtain ⟨ts, f, hts, hf, hsig, httl⟩ := sealed_of_valid hvalid
      refine ⟨ts, f, hts, hf, hsig, ?_⟩
      rw [httl]
      exact (kept_iff hvalid).mpr hkept
  · intro d' hvalid' hsignature hone hkept hkept' t t' ht ht'
    rw [(kept_iff hvalid).mpr hkept t ht, (kept_iff hvalid').mpr hkept' t' ht',
      maxTtlSeconds_of_same_signature hvalid hvalid' hsignature hone]

/-! ### One signature, three lifetimes -/

/-- Only the seconds that are not negative are verified. -/
theorem verifyDecision_maxTtl {maxTtl : Option ProtoDuration}
    (h : maxTtlSeconds maxTtl = maxTtlSeconds d.maxTtl) :
    engine.verifyDecision P (some { d with maxTtl := maxTtl }) =
      engine.verifyDecision P (some d) := by
  have hfields (issuedAtStr : String) :
      decisionFields { d with maxTtl := maxTtl } issuedAtStr = decisionFields d issuedAtStr := by
    simp only [decisionFields, h]
  simp only [PolicyEngine.verifyDecision, hfields]

/-- The nominal decision under its signature, with a lifetime. -/
def nominalWith (ttl : ProtoDuration) : DecisionResponse :=
  { nominalDecision with maxTtl := some ttl }

theorem nominalWith_signature (ttl : ProtoDuration) :
    (nominalWith ttl).decisionSignature = nominalDecision.decisionSignature := by
  rw [nominalWith]

theorem nominalWith_effect (ttl : ProtoDuration) : (nominalWith ttl).effect = effectAllow := by
  rw [nominalWith]
  exact nominalDecision_effect

/-- The PDP sets no lifetime. -/
theorem nominalDecision_maxTtl : nominalDecision.maxTtl = none := by
  obtain ⟨effect, reasons, h⟩ := Pdp.decide_form .standard sampleEngine.pdp
    nominalEvaluation.order nominalEvaluation.request
  rw [nominalDecision, Evaluation.response, h]
  rfl

theorem nominalWith_valid {ttl : ProtoDuration} (h : maxTtlSeconds (some ttl) = 0) :
    (sampleEngine.verifyDecision onceSigned (some (nominalWith ttl))).valid = true := by
  rw [nominalWith, verifyDecision_maxTtl]
  · exact nominalDecision_valid
  · rw [nominalDecision_maxTtl]
    exact h

theorem onceSigned_one {key signature m m' : Bytes}
    (h : onceSigned.ecdsaP256Sha256Fixed key m signature = true)
    (h' : onceSigned.ecdsaP256Sha256Fixed key m' signature = true) : m = m' := by
  rw [onceSigned, Bool.and_eq_true, beq_iff_eq] at h h'
  exact Option.some.inj (h.1.symm.trans h'.1)

/-- Five nanoseconds are no second. -/
theorem signed_lifetime_brief :
    SignedLifetime onceSigned sampleEngine nominalDecision ∧
      ∀ t t', LeadsTo onceSigned sampleEngine nominalDecision t →
        LeadsTo onceSigned sampleEngine (nominalWith ⟨0, 5⟩) t' → t = t' := by
  have hnominal : Kept nominalDecision := by
    left
    intro ttl httl
    rw [nominalDecision_maxTtl] at httl
    cases httl
  have hbrief : Kept (nominalWith ⟨0, 5⟩) := by
    left
    intro ttl httl
    rw [nominalWith] at httl
    obtain rfl := Option.some.inj httl
    decide +kernel
  obtain ⟨hiff, hpair⟩ :=
    signed_lifetime_iff onceSigned sampleEngine nominalDecision nominalDecision_valid
  exact ⟨hiff.mpr hnominal, hpair _ (nominalWith_valid rfl) (nominalWith_signature _)
    (fun _ _ _ _ h h' => onceSigned_one h h') hnominal hbrief⟩

/-- A negative lifetime is sealed as zero and leased as it is. -/
theorem negative_lifetime :
    (sampleEngine.verifyDecision onceSigned (some (nominalWith ⟨-5, 0⟩))).valid = true ∧
      (nominalWith ⟨-5, 0⟩).decisionSignature = nominalDecision.decisionSignature ∧
      ¬ SignedLifetime onceSigned sampleEngine (nominalWith ⟨-5, 0⟩) ∧
      LeadsTo onceSigned sampleEngine (nominalWith ⟨-5, 0⟩) (-5) ∧
      LeadsTo onceSigned sampleEngine nominalDecision 0 := by
  have hvalid := @nominalWith_valid ⟨-5, 0⟩ rfl
  have httl : (ttlSecondsOf (nominalWith ⟨-5, 0⟩)).toInt = -5 := by
    rw [nominalWith]
    rfl
  have hleased : LeadsTo onceSigned sampleEngine (nominalWith ⟨-5, 0⟩) (-5) :=
    (leadsTo_iff hvalid).mpr (Or.inr ⟨nominalWith_effect _, Or.inl httl.symm⟩)
  have hzero : LeadsTo onceSigned sampleEngine nominalDecision 0 := by
    refine (leadsTo_iff nominalDecision_valid).mpr (Or.inl ?_)
    rw [nominalDecision_maxTtl]
    rfl
  refine ⟨hvalid, nominalWith_signature _, ?_, hleased, hzero⟩
  rintro ⟨ts, f, -, -, -, hall⟩
  have := hall _ hleased
  omega

end ZeroSecret.Access
