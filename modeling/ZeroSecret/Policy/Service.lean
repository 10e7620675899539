import ZeroSecret.Crypto.DecisionSeal
import ZeroSecret.Policy.Authorization

/-!
# `apps/policy-engine`: the decision service

`Decide` evaluates, then seals; `VerifyDecision` checks a seal with the key of
the same sealer. A refusal is an ordinary answer; a decision that cannot be
sealed is an error and not an answer.
-/

namespace ZeroSecret.Policy

open Crypto Crypto.DecisionSeal Fallible

/-! ## Instants -/

def rfc3339FromSeconds (totalSeconds : Int64) : String := Calendar.rfc3339 totalSeconds.toInt

/-- `parse::<i64>()` of octets that are digits; `Timestamp::new` has checked
the text before. -/
def decimal (digits : Bytes) : Int := digits.foldl (fun n b => n * 10 + (b.toNat - 48 : Int)) 0

def requestTimeFromRfc3339 (s : String) : Int64 :=
  let field (start stop : Nat) : Int := decimal (((octets s).take stop).drop start)
  Int64.ofInt (Calendar.daysFromCivil (field 0 4) (field 5 7) (field 8 10) * 86400 +
    field 11 13 * 3600 + field 14 16 * 60 + field 17 19)

/-! ## Sealed fields -/

/-- A negative lifetime is sealed as zero; the request identifier is not part
of a response. -/
def maxTtlSeconds (maxTtl : Option ProtoDuration) : Nat :=
  (maxTtl.map fun d => d.seconds.toInt.toNat).getD 0

def decisionFields (response : DecisionResponse) (issuedAtStr : String) :
    Except String DecisionFields :=
  match Timestamp.new issuedAtStr with
  | .error e => .error e.toString
  | .ok issuedAt => .ok {
      requestId := ""
      decisionHash := response.decisionHash
      policyVersion := response.policyVersion
      effectAllow := response.effect == effectAllow
      reasons := response.reasons
      maxTtlSeconds := maxTtlSeconds response.maxTtl
      constraints := response.constraints
      issuedAt := issuedAt }

/-! ## The service -/

structure PolicyEngine where
  pdp : Pdp
  sealer : DecisionSealer
  verifyingKey : AcceptedVerifyingKey

/-- The verification key is the one of the sealer. -/
def PolicyEngine.new (pdp : Pdp) (sealer : DecisionSealer) : Except VerifyError PolicyEngine :=
  sealer.acceptedVerifyingKey.map fun key => ⟨pdp, sealer, key⟩

/-- `Status::internal` and `Status::unavailable`. -/
inductive ServiceError where
  | internal (message : String)
  | unavailable (message : String)
deriving DecidableEq

/-- `now` is the clock in seconds since the epoch. -/
def PolicyEngine.decide (P : Primitives) (engine : PolicyEngine) (order : Enumeration)
    (hsm : Digest → Option Bytes) (now : Int64) (request : DecisionRequest) :
    Except ServiceError DecisionResponse :=
  let response := engine.pdp.decide P order request
  let issuedAtStr := rfc3339FromSeconds now
  match decisionFields response issuedAtStr with
  | .error e => .error (.internal ("horodatage de décision invalide : " ++ e))
  | .ok fields =>
      match engine.sealer.seal P hsm fields with
      | .error e => .error (.unavailable ("scellement de la décision indisponible : " ++ e.toString))
      | .ok (signature, keyId) => .ok {
          response with
          issuedAt := some ⟨requestTimeFromRfc3339 issuedAtStr, 0⟩
          decisionSignature := signature
          decisionSignatureKeyId := keyId }

/-- What one answered call draws: the order in which the determining policies
are enumerated, the clock, and the signatures of the HSM. -/
structure DecideCall where
  order : Enumeration
  now : Int64
  sign : Digest → Bytes
  /-- The clock is between 1970 and 9999. -/
  now_range : 0 ≤ now.toInt ∧ now.toInt < 253402300800

def ServiceError.toString : ServiceError → String
  | .internal message => message
  | .unavailable message => message

/-- What a client of the service gets: no answer when the service, its HSM or
the network is down. -/
def PolicyEngine.serve (P : Primitives) (engine : PolicyEngine) (call : Except String DecideCall)
    (request : DecisionRequest) : Except String DecisionResponse :=
  match call with
  | .error e => .error e
  | .ok call =>
      (engine.decide P call.order (fun d => some (call.sign d)) call.now request).mapError
        ServiceError.toString

structure VerifyDecisionResponse where
  valid : Bool
  reason : String
deriving DecidableEq

def PolicyEngine.verifyDecision (P : Primitives) (engine : PolicyEngine) :
    Option DecisionResponse → VerifyDecisionResponse
  | none => ⟨false, "decision_absente"⟩
  | some decision =>
      match decision.issuedAt with
      | none => ⟨false, "issued_at_absent"⟩
      | some ts =>
          match decisionFields decision (rfc3339FromSeconds ts.seconds) with
          | .error _ => ⟨false, "issued_at_invalide"⟩
          | .ok fields =>
              match DecisionSeal.verify P [engine.verifyingKey] fields
                decision.decisionSignatureKeyId decision.decisionSignature with
              | .ok () => ⟨true, ""⟩
              | .error e => ⟨false, e.toString⟩

/-! ## What is sealed and what is accepted -/

/-- Two responses with one set of sealed fields. -/
theorem decisionFields_congr {d d' : DecisionResponse} (issuedAtStr : String)
    (hhash : d.decisionHash = d'.decisionHash) (hversion : d.policyVersion = d'.policyVersion)
    (heffect : d.effect = d'.effect) (hreasons : d.reasons = d'.reasons)
    (httl : d.maxTtl = d'.maxTtl) (hconstraints : d.constraints = d'.constraints) :
    decisionFields d issuedAtStr = decisionFields d' issuedAtStr := by
  rw [decisionFields, decisionFields, hhash, hversion, heffect, hreasons, httl, hconstraints]

theorem decisionFields_eq_ok {d : DecisionResponse} {issuedAtStr : String} {f : DecisionFields}
    (h : decisionFields d issuedAtStr = .ok f) :
    f.decisionHash = d.decisionHash ∧ f.effectAllow = (d.effect == effectAllow) ∧
      f.issuedAt.val = issuedAtStr := by
  rw [decisionFields] at h
  split at h
  · cases h
  · rename_i issuedAt hi
    obtain rfl := Except.ok.inj h
    refine ⟨rfl, rfl, ?_⟩
    rw [Timestamp.new] at hi
    split at hi
    · exact congrArg Timestamp.val (Except.ok.inj hi).symm
    · cases hi

/-- **A decision that can be sealed is answered**: the effect, the reasons and
what was hashed are the PDP's. -/
theorem PolicyEngine.decide_eq_ok {P : Primitives} {engine : PolicyEngine} {order : Enumeration}
    {hsm : Digest → Option Bytes} {now : Int64} {r : DecisionRequest} {fields : DecisionFields}
    {signature : Bytes}
    (hf : decisionFields (engine.pdp.decide P order r) (rfc3339FromSeconds now) = .ok fields)
    (hs : hsm (P.sha256 (signedMessage fields)) = some signature) :
    engine.decide P order hsm now r = .ok {
      engine.pdp.decide P order r with
      issuedAt := some ⟨requestTimeFromRfc3339 (rfc3339FromSeconds now), 0⟩
      decisionSignature := signature
      decisionSignatureKeyId := engine.sealer.keyId } := by
  unfold PolicyEngine.decide
  simp only [hf, DecisionSealer.seal, hs]

/-- Every answered call is a sealed decision. -/
theorem PolicyEngine.serve_ok (P : Primitives) (engine : PolicyEngine) (call : DecideCall)
    (r : DecisionRequest) : ∃ digest, engine.serve P (.ok call) r = .ok {
      engine.pdp.decide P call.order r with
      issuedAt := some ⟨requestTimeFromRfc3339 (rfc3339FromSeconds call.now), 0⟩
      decisionSignature := call.sign digest
      decisionSignatureKeyId := engine.sealer.keyId } := by
  have hvalid : timestampValid (octets (rfc3339FromSeconds call.now)) = true :=
    timestampValid_rfc3339 (Int.le_trans (by decide) call.now_range.1) call.now_range.2
  obtain ⟨fields, hf⟩ : ∃ fields, decisionFields (engine.pdp.decide P call.order r)
      (rfc3339FromSeconds call.now) = .ok fields := by
    rw [decisionFields, Timestamp.new_eq_ok hvalid]
    exact ⟨_, rfl⟩
  refine ⟨P.sha256 (signedMessage fields), ?_⟩
  rw [PolicyEngine.serve, PolicyEngine.decide_eq_ok hf rfl]
  rfl

theorem PolicyEngine.serve_allow_iff {P : Primitives} {engine : PolicyEngine}
    {call : Except String DecideCall} {r : DecisionRequest} :
    (∃ resp, engine.serve P call r = .ok resp ∧ resp.effect = effectAllow) ↔
      ∃ c, call = .ok c ∧ (engine.pdp.decide P c.order r).effect = effectAllow := by
  cases call with
  | error e =>
      constructor
      · rintro ⟨resp, h, -⟩
        cases h
      · rintro ⟨c, h, -⟩
        cases h
  | ok call =>
      obtain ⟨digest, hserve⟩ := PolicyEngine.serve_ok P engine call r
      rw [hserve]
      constructor
      · rintro ⟨resp, h, ha⟩
        obtain rfl := Except.ok.inj h
        exact ⟨call, rfl, ha⟩
      · rintro ⟨c, h, ha⟩
        obtain rfl := Except.ok.inj h
        exact ⟨_, rfl, ha⟩

/-- **A decision is reported valid** only if the fields it shows are what the
service's key signed. -/
theorem PolicyEngine.verifyDecision_valid {P : Primitives} {engine : PolicyEngine}
    {decision : Option DecisionResponse} (h : (engine.verifyDecision P decision).valid = true) :
    ∃ d ts f, decision = some d ∧ d.issuedAt = some ts ∧
      decisionFields d (rfc3339FromSeconds ts.seconds) = .ok f ∧
      P.ecdsaP256Sha256Fixed engine.verifyingKey.raw (signedMessage f) d.decisionSignature =
        true := by
  cases decision with
  | none => cases h
  | some d =>
      rw [PolicyEngine.verifyDecision] at h
      split at h
      · cases h
      · rename_i ts hts
        split at h
        · cases h
        · rename_i f hf
          split at h
          · rename_i hv
            refine ⟨d, ts, f, rfl, hts, hf, ?_⟩
            rw [DecisionSeal.verify] at hv
            split at hv
            · cases hv
            · split at hv
              · cases hv
              · rename_i key hkey
                split at hv
                · rename_i hsig
                  rwa [← List.mem_singleton.mp (List.mem_of_find?_eq_some hkey)]
                · cases hv
          · cases h

end ZeroSecret.Policy
