import ZeroSecret.Access.DecisionTrace
import ZeroSecret.Identity.IssuedAssertions

/-!
# What a login is worth to the other services

A login is sealed at the level of one factor or of two. The verification service
reports the level that was sealed, whatever the key and the instant, and both
access-broker and admin-api ask whoever makes a request for the level above. So
a login approves and counts as a bearer, but it requests nothing.
-/

namespace ZeroSecret.Access

open Crypto Interleave
open Crypto.IdentityAssertion (AcceptedVerifyingKey WireDocument)
open Identity (IdentityOp Call Serves identityWorld)
open Webauthn (Libraries)

theorem asStr_assuranceLevel_ne (aal : Webauthn.Aal) :
    (Identity.assuranceLevel aal).asStr ≠ "AAL3" := by
  cases aal with
  | aal1 => decide
  | aal2 => decide

/-- The verification service reports the level of the document, or none. -/
theorem verifyAssertion_aal {P : Primitives} {key : AcceptedVerifyingKey} {now : Timestamp}
    {assertion : Bytes} {domain : String} {doc : WireDocument}
    (hread : WireDocument.fromSlice assertion = some doc) :
    (verifyAssertion P key now assertion domain).aal = doc.aal ∨
      (verifyAssertion P key now assertion domain).aal = "" := by
  unfold verifyAssertion
  cases hv : IdentityAssertion.verify P [key] assertion
      ⟨[IdentityAssertion.suiteV1], now, domain⟩ with
  | error e => exact Or.inr rfl
  | ok verified =>
      obtain ⟨-, doc', hdoc, -, haccepts⟩ := IdentityAssertion.verify_eq_ok_iff.mp hv
      obtain rfl := Option.some.inj (hread.symm.trans hdoc)
      obtain rfl := haccepts.reported
      exact Or.inl rfl

/-! ## The requester and the initiator -/

/-- Whoever is granted access was reported at the third level. -/
theorem not_allowed_of_aal_ne {σ : Type} {dep : Deployment σ} {draw : Draw} {assertion : Bytes}
    {body : AccessRequestBody} {s : σ} {resp : VerifyAssertionResponse}
    (hclient : dep.identityClient assertion body.expectedAuthorityDomain = .ok resp)
    (h : resp.aal ≠ "AAL3") :
    (dep.api.createAccessRequest draw assertion (some body) s).1.allowed = false := by
  rw [Bool.eq_false_iff]
  intro hallowed
  obtain ⟨requester, hrequester, -, -, haal⟩ :=
    (Deployment.allowed_iff_grantable.mp hallowed).requester
  obtain rfl := Except.ok.inj (hclient.symm.trans hrequester)
  exact h haal

/-- Whoever is let through to a quorum was too; anyone else is refused before anything is
recorded. -/
theorem refused_of_aal_ne {σ : Type} {a : Admin.API σ} {draw : Admin.Draw} {operationId : String}
    {assertion : Bytes} {header : String} {body : Option Admin.QuorumRequest} {s : σ}
    {resp : VerifyAssertionResponse}
    (hclient : a.identityClient assertion a.expectedAuthorityDomain = .ok (some resp))
    (h : resp.aal ≠ "AAL3") :
    ∃ status reason,
      a.verifyQuorum draw operationId assertion header body s = (.error status reason, s) := by
  unfold Admin.API.verifyQuorum
  cases body with
  | none => exact ⟨_, _, rfl⟩
  | some body =>
      cases hcaller : a.verifyCaller assertion header with
      | error refus => exact ⟨_, _, rfl⟩
      | ok caller =>
          obtain ⟨hnamed, haal⟩ := Admin.verifyCaller_eq_ok hcaller
          obtain rfl := Option.some.inj (Except.ok.inj (hclient.symm.trans hnamed))
          exact absurd haal h

/-! ## Every login -/

section Runs

variable {Caller : Type} [DecidableEq Caller] {L : Libraries} {sealer : AuditSeal.AuditSealer}
  {start : Int} {state : Identity.AppState} {calls : Caller → Call}
  {h : List (Executed Caller IdentityOp.Resp)}
  {c : Config (identityWorld Caller L.toPrimitives sealer start) Identity.Response} {i : Caller}
  {assertion : String}

/-- A login that was returned reads as a document below the third level. -/
theorem login_level
    (hc : History (identityWorld Caller L.toPrimitives sealer start) (Serves L state calls) h c)
    (hret : c.procs i = some (.ret (.authenticated assertion))) :
    ∃ bytes doc, Base64.decodeUrl assertion = some bytes ∧
      WireDocument.fromSlice bytes = some doc ∧ doc.aal ≠ "AAL3" := by
  obtain ⟨req, inputs, challengeSubject, columns, row, claims, eventId, now, sealed_,
    sealedAssertion, signature, l, -, -, -, hissuing, -, -, rfl, hread⟩ :=
    Identity.performed_of_authenticated hc hret
  refine ⟨sealedAssertion.bytes, _, Base64.decodeUrl_encodeUrl _, hread, ?_⟩
  change sealed_.aal.asStr ≠ "AAL3"
  rw [(Identity.claimsFilled_of_eq_ok hissuing.claims).level]
  exact asStr_assuranceLevel_ne claims.aal

/-- **A login requests nothing.** In whatever run of identity-provider it was returned, and
whenever and under whatever key the verification service is asked about it: access-broker allows
no request made with it, and admin-api refuses it as the initiator of a quorum and records
nothing. -/
theorem login_requests_nothing
    (hc : History (identityWorld Caller L.toPrimitives sealer start) (Serves L state calls) h c)
    (hret : c.procs i = some (.ret (.authenticated assertion))) :
    ∃ bytes, Base64.decodeUrl assertion = some bytes ∧
      ∀ (P : Primitives) (key : AcceptedVerifyingKey) (now : Timestamp) (σ : Type) (s : σ),
        (∀ (dep : Deployment σ) (draw : Draw) (body : AccessRequestBody),
          dep.identityClient bytes body.expectedAuthorityDomain =
            .ok (verifyAssertion P key now bytes body.expectedAuthorityDomain) →
          (dep.api.createAccessRequest draw bytes (some body) s).1.allowed = false) ∧
        ∀ (a : Admin.API σ) (draw : Admin.Draw) (operationId header : String)
          (body : Option Admin.QuorumRequest),
          a.identityClient bytes a.expectedAuthorityDomain =
            .ok (some (verifyAssertion P key now bytes a.expectedAuthorityDomain)) →
          ∃ status reason,
            a.verifyQuorum draw operationId bytes header body s = (.error status reason, s) := by
  obtain ⟨bytes, doc, hbytes, hread, hlevel⟩ := login_level hc hret
  have hbelow : ∀ P key now domain, (verifyAssertion P key now bytes domain).aal ≠ "AAL3" := by
    intro P key now domain
    rcases verifyAssertion_aal hread with haal | haal
    · rw [haal]
      exact hlevel
    · rw [haal]
      decide
  refine ⟨bytes, hbytes, fun P key now σ s => ⟨?_, ?_⟩⟩
  · intro dep draw body hclient
    exact not_allowed_of_aal_ne hclient (hbelow P key now _)
  · intro a draw operationId header body hclient
    exact refused_of_aal_ne hclient (hbelow P key now _)

end Runs

/-- The login of alice, used as a request for access and as the initiator of a quorum. -/
theorem login_requests_nothing_alice :
    ∃ assertion bytes, Base64.decodeUrl assertion = some bytes ∧
      Identity.sampleResult Identity.countingCalls 3 = .authenticated assertion ∧
      (Deployment.api { sampleDeployment with
          identityClient := fun assertion domain => .ok (verifyLogin assertion domain) }
        |>.createAccessRequest sampleDraw bytes (some (sampleBody [⟨⟨1787500200, 0⟩, bytes⟩]))
          ()).1.allowed = false := by
  obtain ⟨h, c, hc, -, hprocs, -⟩ := Identity.sample_history Identity.countingCalls 4
  obtain ⟨assertion, hresult⟩ := Identity.countingCalls_loggedIn
  have hthree : c.procs 3 = some (.ret (.authenticated assertion)) := by
    rw [hprocs, ← hresult]
    rfl
  obtain ⟨bytes, hbytes, hnothing⟩ := login_requests_nothing hc hthree
  refine ⟨assertion, bytes, hbytes, hresult, ?_⟩
  exact (hnothing .standard loginVerifyingKey loginInstant Unit ()).1 _ _ _ rfl

end ZeroSecret.Access
