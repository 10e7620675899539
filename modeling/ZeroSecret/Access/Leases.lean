import ZeroSecret.Access.SelfApproval
import ZeroSecret.Base.Guards

/-!
# From the request to the lease

access-broker and credential-issuer as one system: any number of requests for
access, and of emission orders of other clients, with their steps interleaved.
A lease that is asked of OpenBao for a request is the one the PDP granted to
that very request, after its decision was reported, verified and consumed; and
a lease that a response names was handed out to its request.
-/

namespace ZeroSecret.Access

open Crypto Policy Interleave
open Issuance (EmissionOrder EmissionResult IssuerOp IssuerProg IssuerResp Lease)

/-! ## The two services as programs -/

inductive GrantOp
  | issuer (op : IssuerOp)
  | record (raw : Audit.RawEvent)

def GrantOp.Resp : GrantOp → Type
  | issuer op => IssuerResp op
  | record _ => Except String Audit.RecordResult

abbrev GrantProg : Type → Type := Prog GrantOp GrantOp.Resp

namespace GrantProg

def ofIssuer {α : Type} (p : IssuerProg α) : GrantProg α := p.lift GrantOp.issuer fun _ r => r

/-- Best effort: the result is only logged. -/
def record (raw : Audit.RawEvent) : GrantProg Unit := do
  let _ ← Prog.perform (GrantOp.record raw)
  return ()

/-- `API.Emit` of credential-issuer. -/
def emit (req : EmissionOrder) : GrantProg (Except String EmissionResult) := do
  match ← ofIssuer (Issuance.Issuer.emit req) with
  | .error err => return .error ("émission indisponible : " ++ err)
  | .ok result =>
      if result.allowed then
        record (Issuance.credentialIssuedEvent req.authorityDomain req.resourceType req.resourceId
          result.event)
        return .ok ⟨true, result.reasons, result.leaseId,
          some (Issuance.durationpb result.leaseDuration)⟩
      else return .ok ⟨false, result.reasons, result.leaseId, none⟩

/-- The handler of access-broker once the decision is known. -/
def respond (requestId : String) (body : AccessRequestBody)
    (verifyResp : VerifyAssertionResponse) (decision : Broker.Decision) :
    GrantProg HttpResponse := do
  let resp : DecisionBody :=
    ⟨decision.allowed, decision.reasons, decision.decisionHash, decision.policyVersion, none, none⟩
  match decision.signed with
  | none => return .decision resp
  | some signed =>
      record (policyDecidedEvent requestId body verifyResp decision.allowed signed)
      if decision.allowed then
        let emission ← emit (emissionOrder requestId body verifyResp signed)
        return .decision (API.withLease emission resp)
      else return .decision resp

def handle (b : Broker) (draw : Draw) (assertion : Bytes) (body : AccessRequestBody) :
    GrantProg HttpResponse :=
  match b.identityClient assertion body.expectedAuthorityDomain with
  | .error _ => return .error 502 "verification_du_demandeur_indisponible"
  | .ok verifyResp =>
      if !verifyResp.valid then
        return .error 401 ("assertion_du_demandeur_invalide:" ++ verifyResp.reason)
      else
        match draw.newV7 with
        | .error _ => return .error 500 "generation_de_lidentifiant_de_requete"
        | .ok requestId =>
            match b.decide draw.requestedAt
              (accessRequest requestId draw.authenticatedAt body verifyResp) with
            | .error _ => return .error 502 "echec_de_transport"
            | .ok decision => respond requestId body verifyResp decision

def createAccessRequest (b : Broker) (draw : Draw) (assertion : Bytes)
    (body : Option AccessRequestBody) : GrantProg HttpResponse :=
  match body with
  | none => return .error 400 "corps_de_requete_malforme"
  | some body => handle b draw assertion body

end GrantProg

/-! ### Left alone, the program is the handler -/

section Alone

variable {σ : Type} (answer : (op : GrantOp) → σ → op.Resp × σ)

/-- The services around access-broker, as the answers make them. -/
def aloneIssuance : Issuance.API σ where
  issuer := fun order => (Issuance.Issuer.emit order).run fun op => answer (.issuer op)
  auditClient := fun raw => answer (.record raw)

def aloneApi (b : Broker) : API σ where
  broker := b
  credentialClient := (aloneIssuance answer).emit
  auditClient := fun raw => answer (.record raw)

theorem run_ofIssuer {α : Type} (p : IssuerProg α) (s : σ) :
    (GrantProg.ofIssuer p).run answer s = p.run (fun op => answer (.issuer op)) s := by
  induction p generalizing s with
  | ret a => rfl
  | call op k ih => exact ih _ _

theorem run_record (raw : Audit.RawEvent) (s : σ) :
    (GrantProg.record raw).run answer s = ((), (answer (.record raw) s).2) := rfl

theorem run_emit (req : EmissionOrder) (s : σ) :
    (GrantProg.emit req).run answer s = (aloneIssuance answer).emit req s := by
  unfold GrantProg.emit Issuance.API.emit
  rw [Prog.run_bind, run_ofIssuer]
  dsimp only [aloneIssuance]
  generalize (Issuance.Issuer.emit req).run (fun op => answer (.issuer op)) s = result
  obtain ⟨err | result, s'⟩ := result
  · rfl
  · dsimp only
    split
    · rfl
    · rfl

theorem run_respond (b : Broker) (requestId : String) (body : AccessRequestBody)
    (verifyResp : VerifyAssertionResponse) (decision : Broker.Decision) (s : σ) :
    (GrantProg.respond requestId body verifyResp decision).run answer s =
      (aloneApi answer b).respond requestId body verifyResp decision s := by
  unfold GrantProg.respond API.respond
  cases decision.signed with
  | none => rfl
  | some signed =>
      dsimp only
      rw [Prog.run_bind, run_record]
      split
      · rw [Prog.run_bind, run_emit]
        rfl
      · rfl

/-- **The program, left alone, is the handler** of the services that answer it. -/
theorem run_createAccessRequest (b : Broker) (draw : Draw) (assertion : Bytes)
    (body : Option AccessRequestBody) (s : σ) :
    (GrantProg.createAccessRequest b draw assertion body).run answer s =
      (aloneApi answer b).createAccessRequest draw assertion body s := by
  cases body with
  | none => rfl
  | some body =>
      change (GrantProg.handle b draw assertion body).run answer s =
        (aloneApi answer b).handle draw assertion body s
      unfold GrantProg.handle API.handle
      dsimp only [aloneApi]
      cases b.identityClient assertion body.expectedAuthorityDomain with
      | error e => rfl
      | ok verifyResp =>
          dsimp only
          split
          · rfl
          · cases draw.newV7 with
            | error e => rfl
            | ok requestId =>
                dsimp only
                cases b.decide draw.requestedAt
                    (accessRequest requestId draw.authenticatedAt body verifyResp) with
                | error e => rfl
                | ok decision => exact run_respond answer b _ _ _ _ s

end Alone

/-! ## The system -/

/-- What the PDP runs on. -/
structure Site where
  primitives : Primitives
  message : ErrorText
  policyVersion : String
  sealer : DecisionSeal.DecisionSealer
  verifyingKey : DecisionSeal.AcceptedVerifyingKey

/-- A request for access, with what identity-provider and the service of the PDP answer it. -/
structure AccessCall where
  identityClient : Bytes → String → Except String VerifyAssertionResponse
  call : Except String DecideCall
  draw : Draw
  assertion : Bytes
  body : Option AccessRequestBody

/-- A request for access, or the order of another client of credential-issuer. -/
inductive GrantCall
  | access (req : AccessCall)
  | order (order : EmissionOrder)

inductive GrantAnswer
  | http (resp : HttpResponse)
  | emission (result : Except String EmissionResult)

namespace Site

def deployment (site : Site) (req : AccessCall) : Deployment Unit where
  primitives := site.primitives
  message := site.message
  policyVersion := site.policyVersion
  sealer := site.sealer
  verifyingKey := site.verifyingKey
  call := req.call
  identityClient := req.identityClient
  credentialClient := fun _ s => (.error "", s)
  auditClient := fun _ s => (.error "", s)

def program (site : Site) : GrantCall → GrantProg GrantAnswer
  | .access req => do
      return .http (← GrantProg.createAccessRequest (site.deployment req).broker req.draw
        req.assertion req.body)
  | .order order => do return .emission (← GrantProg.emit order)

end Site

/-- The replay store is one critical section; everybody else answers anything. -/
def Grants : (op : GrantOp) → List Bytes → op.Resp → List Bytes → Prop
  | .issuer (.markConsumed decisionHash), consumed, answer, consumed' =>
      answer = .ok (Issuance.InMemoryConsumedDecisionStore.markConsumed consumed decisionHash).1 ∧
        consumed' = (Issuance.InMemoryConsumedDecisionStore.markConsumed consumed decisionHash).2
  | .issuer (.verifyDecision _), consumed, _, consumed' => consumed' = consumed
  | .issuer .newV7, consumed, _, consumed' => consumed' = consumed
  | .issuer (.issueLease _ _), consumed, _, consumed' => consumed' = consumed
  | .record _, consumed, _, consumed' => consumed' = consumed

def grantWorld (Caller : Type) : World Caller GrantOp GrantOp.Resp where
  State := List Bytes
  init := []
  exec := fun _ op s answer s' => Grants op s answer s'

abbrev GrantAct := Act GrantOp.Resp

/-! ## What one call may do -/

/-- The PDP has allowed what the request asks for. -/
structure Ordered (site : Site) (req : AccessCall) (requestId : String) (body : AccessRequestBody)
    (requester : VerifyAssertionResponse) (signed : DecisionResponse) : Prop where
  read : req.body = some body
  identified : req.identityClient req.assertion body.expectedAuthorityDomain = .ok requester
  valid : requester.valid = true
  drawn : req.draw.newV7 = .ok requestId
  decided : (site.deployment req).broker.decide req.draw.requestedAt
    (accessRequest requestId req.draw.authenticatedAt body requester) = .ok (.ofResponse signed)
  allowed : signed.effect = effectAllow

/-- The order a call sends: its own, or that of its request once the decision is reported. -/
inductive OrderOf (site : Site) (past : List GrantAct) : GrantCall → EmissionOrder → Prop
  | access {req : AccessCall} {requestId : String} {body : AccessRequestBody}
      {requester : VerifyAssertionResponse} {signed : DecisionResponse}
      {answer : Except String Audit.RecordResult}
      (hordered : Ordered site req requestId body requester signed)
      (hreported : (⟨.record (policyDecidedEvent requestId body requester true signed), answer⟩ :
        GrantAct) ∈ past) :
      OrderOf site past (.access req) (emissionOrder requestId body requester signed)
  | order (order : EmissionOrder) : OrderOf site past (.order order) order

theorem OrderOf.mono {site : Site} {past past' : List GrantAct} {call : GrantCall}
    {order : EmissionOrder} (h : OrderOf site past call order) (hpast : past ⊆ past') :
    OrderOf site past' call order := by
  cases h with
  | access hordered hreported => exact .access hordered (hpast hreported)
  | order => exact .order order

def IsLease (op : GrantOp) : Prop := ∃ path ttl, op = .issuer (.issueLease path ttl)

/-- What has been done before a lease is asked for: the decision of the order grants, was reported
valid, and gave the right to go on; and nothing was asked for yet. -/
structure Ready (site : Site) (call : GrantCall) (past : List GrantAct) (order : EmissionOrder)
    (d : DecisionResponse) : Prop where
  sent : OrderOf site past call order
  decision : order.decision = some d
  allow : d.effect = effectAllow
  verified : ∃ resp, resp.valid = true ∧
    (⟨.issuer (.verifyDecision d), .ok resp⟩ : GrantAct) ∈ past
  consumed : (⟨.issuer (.markConsumed d.decisionHash), .ok false⟩ : GrantAct) ∈ past
  first : ∀ act ∈ past, ¬ IsLease act.op

def Permits (site : Site) (call : GrantCall) (past : List GrantAct) (op : GrantOp) : Prop :=
  ∀ path ttl, op = .issuer (.issueLease path ttl) → ∃ order d, Ready site call past order d ∧
    path = "database/creds/" ++ order.resourceId ∧ ttl = Issuance.ttlSecondsOf d

/-- OpenBao handed the lease out for the order of the call and its decision. -/
structure Leased (site : Site) (call : GrantCall) (past : List GrantAct) (order : EmissionOrder)
    (d : DecisionResponse) (lease : Lease) : Prop where
  sent : OrderOf site past call order
  decision : order.decision = some d
  handedOut : (⟨.issuer (.issueLease ("database/creds/" ++ order.resourceId)
    (Issuance.ttlSecondsOf d)), .ok lease⟩ : GrantAct) ∈ past

/-- And `credential.issued` was sent, about this order, its decision and this lease. -/
def Handed (site : Site) (call : GrantCall) (past : List GrantAct) (id : String) : Prop :=
  ∃ order d lease, Leased site call past order d lease ∧ lease.id = id ∧
    ∃ eventId answer, (⟨.record (Issuance.credentialIssuedEvent order.authorityDomain
      order.resourceType order.resourceId (Issuance.issuedEvent order d eventId lease)),
        answer⟩ : GrantAct) ∈ past

def Answered (site : Site) (call : GrantCall) (past : List GrantAct) : GrantAnswer → Prop
  | .http resp => ∀ id, resp.leaseId = some id → Handed site call past id
  | .emission result => ∀ r, result = .ok r → r.allowed = true → Handed site call past r.leaseId

section Calls

variable {site : Site} {call : GrantCall} {past : List GrantAct} {order : EmissionOrder}
  {d : DecisionResponse}

theorem first_snoc {act : GrantAct} (h : ∀ a ∈ past, ¬ IsLease a.op) (hact : ¬ IsLease act.op) :
    ∀ a ∈ past ++ [act], ¬ IsLease a.op := by
  intro a ha
  rcases List.mem_append.mp ha with ha | ha
  · exact h a ha
  · obtain rfl := List.mem_singleton.mp ha
    exact hact

theorem Ready.snoc (h : Ready site call past order d) {act : GrantAct} (hact : ¬ IsLease act.op) :
    Ready site call (past ++ [act]) order d where
  sent := h.sent.mono (List.subset_append_left _ _)
  decision := h.decision
  allow := h.allow
  verified := by
    obtain ⟨resp, hvalid, hmem⟩ := h.verified
    exact ⟨resp, hvalid, List.mem_append_left _ hmem⟩
  consumed := List.mem_append_left _ h.consumed
  first := first_snoc h.first hact

theorem permits_of_not_isLease {op : GrantOp} (h : ¬ IsLease op) : Permits site call past op :=
  fun path ttl hop => absurd ⟨path, ttl, hop⟩ h

theorem not_isLease_record (raw : Audit.RawEvent) : ¬ IsLease (.record raw) := by
  rintro ⟨path, ttl, hop⟩
  cases hop

theorem not_isLease_verify (d : DecisionResponse) : ¬ IsLease (.issuer (.verifyDecision d)) := by
  rintro ⟨path, ttl, hop⟩
  cases hop

theorem not_isLease_mark (decisionHash : Bytes) :
    ¬ IsLease (.issuer (.markConsumed decisionHash)) := by
  rintro ⟨path, ttl, hop⟩
  cases hop

theorem not_isLease_newV7 : ¬ IsLease (.issuer .newV7) := by
  rintro ⟨path, ttl, hop⟩
  cases hop

/-- What the issuer comes to: a credential is a lease of the order, with the event about it. -/
def Issued (site : Site) (call : GrantCall) (order : EmissionOrder) (past : List GrantAct)
    (result : Except String Issuance.Result) : Prop :=
  ∀ r, result = .ok r → r.allowed = true → ∃ d lease, Leased site call past order d lease ∧
    lease.id = r.leaseId ∧ ∃ eventId, r.event = Issuance.issuedEvent order d eventId lease

theorem issued_refused (reasons : List String) :
    Issued site call order past (.ok (Issuance.refused reasons)) := by
  intro r hr hallowed
  obtain rfl := Except.ok.inj hr
  cases hallowed

theorem issued_error (err : String) : Issued site call order past (.error err) := by
  intro r hr
  cases hr

theorem issue_guarded (h : Ready site call past order d) :
    (GrantProg.ofIssuer (Issuance.Issuer.issue order d)).Guarded (Permits site call)
      (Issued site call order) past := by
  unfold Issuance.Issuer.issue Issuance.openBaoPath
  by_cases hverb : order.verb = "db.connect"
  · rw [if_pos hverb]
    refine ⟨permits_of_not_isLease not_isLease_newV7, fun id => ?_⟩
    rcases id with err | eventId
    · exact issued_error _
    · have hready : Ready site call (past ++ [⟨.issuer .newV7, .ok eventId⟩]) order d :=
        h.snoc not_isLease_newV7
      refine ⟨?_, fun answer => ?_⟩
      · rintro path ttl hop
        cases hop
        exact ⟨order, d, hready, rfl, rfl⟩
      · rcases answer with err | lease
        · exact issued_error _
        · intro r hr _
          obtain rfl := Except.ok.inj hr
          refine ⟨d, lease, ⟨?_, h.decision, ?_⟩, rfl, eventId, rfl⟩
          · exact hready.sent.mono (List.subset_append_left _ _)
          · exact List.mem_append_right _ (List.mem_singleton_self _)
  · rw [if_neg hverb]
    exact issued_refused _

/-- The issuer asks for a lease when it is ready, whatever it is answered. -/
theorem issuer_guarded (horder : OrderOf site past call order)
    (hfirst : ∀ act ∈ past, ¬ IsLease act.op) :
    (GrantProg.ofIssuer (Issuance.Issuer.emit order)).Guarded (Permits site call)
      (Issued site call order) past := by
  unfold Issuance.Issuer.emit
  cases hd : order.decision with
  | none => exact issued_refused _
  | some d =>
      refine ⟨permits_of_not_isLease (not_isLease_verify d), fun verified => ?_⟩
      rcases verified with err | resp
      · exact issued_error _
      · change (GrantProg.ofIssuer (Issuance.Issuer.reported order d resp)).Guarded _ _ _
        unfold Issuance.Issuer.reported
        split
        · exact issued_refused _
        · rename_i hvalid
          split
          · exact issued_refused _
          · rename_i hallow
            refine ⟨permits_of_not_isLease (not_isLease_mark d.decisionHash), fun marked => ?_⟩
            rcases marked with err | _ | _
            · exact issued_error _
            · exact issue_guarded {
                sent := horder.mono fun act hact => by simp [hact]
                decision := hd
                allow := not_not.mp hallow
                verified := ⟨resp, by simpa using hvalid, by simp⟩
                consumed := List.mem_append_right _ (List.mem_singleton_self _)
                first := first_snoc (first_snoc hfirst (not_isLease_verify d))
                  (not_isLease_mark d.decisionHash) }
            · exact issued_refused _

theorem Leased.mono {past' : List GrantAct} {lease : Lease} (h : Leased site call past order d lease)
    (hpast : past ⊆ past') : Leased site call past' order d lease where
  sent := h.sent.mono hpast
  decision := h.decision
  handedOut := hpast h.handedOut

theorem emit_guarded (horder : OrderOf site past call order)
    (hfirst : ∀ act ∈ past, ¬ IsLease act.op) :
    (GrantProg.emit order).Guarded (Permits site call)
      (fun past result => ∀ r, result = .ok r → r.allowed = true → Handed site call past r.leaseId)
      past := by
  refine Prog.guarded_bind (issuer_guarded horder hfirst) ?_
  rintro past' (err | result) hissued
  · intro r hr
    cases hr
  · change Prog.Guarded _ _ _ (if result.allowed then _ else _)
    split
    · rename_i hallowed
      obtain ⟨d, lease, hleased, hid, eventId, hevent⟩ := hissued result rfl hallowed
      refine ⟨permits_of_not_isLease (not_isLease_record _), fun answer => ?_⟩
      intro r hr _
      obtain rfl := Except.ok.inj hr
      refine ⟨order, d, lease, hleased.mono (List.subset_append_left _ _), hid, eventId, answer, ?_⟩
      rw [← hevent]
      exact List.mem_append_right _ (List.mem_singleton_self _)
    · intro r hr hallowed
      obtain rfl := Except.ok.inj hr
      cases hallowed

/-- A response names a lease when the emission did. -/
theorem leaseId_withLease {emission : Except String EmissionResult} {resp : DecisionBody}
    {id : String} (hnone : resp.leaseId = none) (h : (API.withLease emission resp).leaseId = some id) :
    ∃ r, emission = .ok r ∧ r.allowed = true ∧ r.leaseId = id := by
  unfold API.withLease at h
  split at h
  · rw [hnone] at h
    cases h
  · rename_i r
    split at h
    · rename_i hallowed
      exact ⟨r, rfl, hallowed, Option.some.inj h⟩
    · rw [hnone] at h
      cases h

theorem respond_guarded {req : AccessCall} {requestId : String} {body : AccessRequestBody}
    {requester : VerifyAssertionResponse} {decision : Broker.Decision} (hread : req.body = some body)
    (hidentified : req.identityClient req.assertion body.expectedAuthorityDomain = .ok requester)
    (hvalid : requester.valid = true) (hdrawn : req.draw.newV7 = .ok requestId)
    (hdecided : (site.deployment req).broker.decide req.draw.requestedAt
      (accessRequest requestId req.draw.authenticatedAt body requester) = .ok decision) :
    (GrantProg.respond requestId body requester decision).Guarded (Permits site (.access req))
      (fun past resp => ∀ id, resp.leaseId = some id → Handed site (.access req) past id) [] := by
  unfold GrantProg.respond
  cases hsigned : decision.signed with
  | none =>
      intro id hid
      cases hid
  | some signed =>
      obtain ⟨-, -, rfl⟩ := Broker.decide_signed_iff.mp ⟨hdecided, hsigned⟩
      refine ⟨permits_of_not_isLease (not_isLease_record _), fun answer => ?_⟩
      change Prog.Guarded _ _ _ (if (Broker.Decision.ofResponse signed).allowed then _ else _)
      split
      · rename_i hallowed
        have hreported : (⟨.record (policyDecidedEvent requestId body requester true signed),
            answer⟩ : GrantAct) ∈ [] ++ [⟨.record (policyDecidedEvent requestId body requester
              (Broker.Decision.ofResponse signed).allowed signed), answer⟩] := by
          rw [hallowed]
          exact List.mem_append_right _ (List.mem_singleton_self _)
        have hordered : Ordered site req requestId body requester signed :=
          ⟨hread, hidentified, hvalid, hdrawn, hdecided, beq_iff_eq.mp hallowed⟩
        refine Prog.guarded_bind (emit_guarded (.access hordered hreported) ?_) ?_
        · exact first_snoc (fun a ha => by cases ha) (not_isLease_record _)
        · intro past' emission hemission id hid
          obtain ⟨r, hr, hgranted, rfl⟩ := leaseId_withLease rfl hid
          exact hemission r hr hgranted
      · intro id hid
        cases hid

theorem createAccessRequest_guarded (req : AccessCall) :
    (GrantProg.createAccessRequest (site.deployment req).broker req.draw req.assertion
      req.body).Guarded (Permits site (.access req))
      (fun past resp => ∀ id, resp.leaseId = some id → Handed site (.access req) past id) [] := by
  unfold GrantProg.createAccessRequest
  split
  · intro id hid
    cases hid
  · rename_i body hread
    unfold GrantProg.handle
    split
    · intro id hid
      cases hid
    · rename_i requester hidentified
      split
      · intro id hid
        cases hid
      · rename_i hvalid
        split
        · intro id hid
          cases hid
        · rename_i requestId hdrawn
          split
          · intro id hid
            cases hid
          · rename_i decision hdecided
            exact respond_guarded hread hidentified (by simpa using hvalid) hdrawn hdecided

/-- **What a call does**, whatever it is answered. -/
theorem program_guarded (call : GrantCall) :
    (site.program call).Guarded (Permits site call) (Answered site call) [] := by
  cases call with
  | access req =>
      exact Prog.guarded_bind (createAccessRequest_guarded req) fun _ _ h => h
  | order order =>
      exact Prog.guarded_bind (emit_guarded (.order order) fun a ha => by cases ha) fun _ _ h => h

end Calls

/-! ## Every run -/

/-- The PDP sets no lifetime. -/
theorem serve_maxTtl {P : Primitives} {engine : PolicyEngine} {call : Except String DecideCall}
    {r : DecisionRequest} {resp : DecisionResponse} (h : engine.serve P call r = .ok resp) :
    resp.maxTtl = none := by
  cases call with
  | error e => cases h
  | ok call =>
      obtain ⟨digest, hserve⟩ := PolicyEngine.serve_ok P engine call r
      obtain ⟨effect, reasons, hform⟩ := Pdp.decide_form P engine.pdp call.order r
      obtain rfl := Except.ok.inj (h.symm.trans hserve)
      exact congrArg DecisionResponse.maxTtl hform

theorem Ordered.maxTtl {site : Site} {req : AccessCall} {requestId : String}
    {body : AccessRequestBody} {requester : VerifyAssertionResponse} {signed : DecisionResponse}
    (h : Ordered site req requestId body requester signed) : signed.maxTtl = none := by
  obtain ⟨-, hserved, -⟩ := Broker.decide_signed_iff.mp ⟨h.decided, rfl⟩
  exact serve_maxTtl hserved

theorem Ordered.grantable {site : Site} {req : AccessCall} {requestId : String}
    {body : AccessRequestBody} {requester : VerifyAssertionResponse} {signed : DecisionResponse}
    (h : Ordered site req requestId body requester signed) :
    (site.deployment req).Grantable req.draw req.assertion body := by
  refine (Deployment.allowed_iff_grantable (s := ())).mp (createAccessRequest_allowed_iff.mpr ?_)
  exact ⟨requester, h.identified, h.valid, requestId, h.drawn, _, h.decided,
    beq_iff_eq.mpr h.allowed⟩

/-- A lease asked for by a request: for the decision the PDP gave on this very request, which was
reported under its identifier and requester, verified and consumed before. -/
structure GrantedTo (site : Site) (req : AccessCall) (past : List GrantAct) (path : String)
    (ttl : Int64) (requestId : String) (body : AccessRequestBody)
    (requester : VerifyAssertionResponse) (signed : DecisionResponse) : Prop where
  ordered : Ordered site req requestId body requester signed
  grantable : (site.deployment req).Grantable req.draw req.assertion body
  path : path = "database/creds/" ++ body.resource.id
  ttl : ttl = 0
  reported : ∃ answer,
    (⟨.record (policyDecidedEvent requestId body requester true signed), answer⟩ : GrantAct) ∈ past
  verified : ∃ resp, resp.valid = true ∧
    (⟨.issuer (.verifyDecision signed), .ok resp⟩ : GrantAct) ∈ past
  consumed : (⟨.issuer (.markConsumed signed.decisionHash), .ok false⟩ : GrantAct) ∈ past

theorem grantedTo_of_permits {site : Site} {req : AccessCall} {past : List GrantAct} {path : String}
    {ttl : Int64} (h : Permits site (.access req) past (.issuer (.issueLease path ttl))) :
    ∃ requestId body requester signed,
      GrantedTo site req past path ttl requestId body requester signed := by
  obtain ⟨order, d, hready, hpath, httl⟩ := h path ttl rfl
  cases hready.sent with
  | access hordered hreported =>
      obtain rfl := Option.some.inj hready.decision
      refine ⟨_, _, _, _, hordered, hordered.grantable, hpath, ?_, ⟨_, hreported⟩, hready.verified,
        hready.consumed⟩
      rw [httl, Issuance.ttlSecondsOf, hordered.maxTtl]

section Runs

variable {Caller : Type}

/-- The act gave the right to go on for the hash. -/
def Marks (e : Executed Caller GrantOp.Resp) (decisionHash : Bytes) : Prop :=
  e.toAct = ⟨.issuer (.markConsumed decisionHash), .ok false⟩

/-- The store holds every hash the right was given for. -/
def Stored (h : List (Executed Caller GrantOp.Resp)) (consumed : List Bytes) : Prop :=
  ∀ e ∈ h, ∀ decisionHash, Marks e decisionHash → decisionHash ∈ consumed

/-- The right was not given to both for one hash. -/
def Apart (e e' : Executed Caller GrantOp.Resp) : Prop :=
  ∀ decisionHash, Marks e decisionHash → ¬ Marks e' decisionHash

theorem apart_symm : Std.Symm (@Apart Caller) where
  symm := fun _ _ h decisionHash hmarks hmarks' => h decisionHash hmarks' hmarks

theorem mem_markConsumed {consumed : List Bytes} {x decisionHash : Bytes} (h : x ∈ consumed) :
    x ∈ (Issuance.InMemoryConsumedDecisionStore.markConsumed consumed decisionHash).2 := by
  unfold Issuance.InMemoryConsumedDecisionStore.markConsumed
  split
  · exact h
  · exact List.mem_cons_of_mem _ h

/-- A store only grows. -/
theorem mem_of_grants {consumed consumed' : List Bytes} {op : GrantOp} {answer : op.Resp}
    (h : Grants op consumed answer consumed') {x : Bytes} (hx : x ∈ consumed) : x ∈ consumed' := by
  cases op with
  | record raw => exact h ▸ hx
  | issuer op =>
      cases op with
      | verifyDecision d => exact h ▸ hx
      | newV7 => exact h ▸ hx
      | issueLease path ttl => exact h ▸ hx
      | markConsumed decisionHash =>
          obtain ⟨-, rfl⟩ := h
          exact mem_markConsumed hx

/-- The right is given for a hash that is new, and the hash is stored. -/
theorem new_of_marks {consumed consumed' : List Bytes} {e : Executed Caller GrantOp.Resp}
    {decisionHash : Bytes} (h : Grants e.op consumed e.answer consumed')
    (hmarks : Marks e decisionHash) : decisionHash ∉ consumed ∧ decisionHash ∈ consumed' := by
  obtain ⟨⟨op, answer⟩, i⟩ := e
  obtain ⟨rfl, hanswer⟩ := Act.mk.inj hmarks
  obtain rfl := eq_of_heq hanswer
  obtain ⟨hans, rfl⟩ := h
  unfold Issuance.InMemoryConsumedDecisionStore.markConsumed at hans ⊢
  split at hans
  · cases hans
  · rename_i hnew
    rw [if_neg hnew]
    exact ⟨hnew, List.mem_cons_self⟩

/-- **The right to go on is given once for a hash.** -/
theorem marks_once {h : List (Executed Caller GrantOp.Resp)} {consumed : List Bytes}
    (hx : Execution (grantWorld Caller) h consumed) : Stored h consumed ∧ h.Pairwise Apart := by
  refine Execution.invariant (W := grantWorld Caller)
    (I := fun h (s : List Bytes) => Stored h s ∧ h.Pairwise Apart) ?_ ?_ hx
  · exact ⟨fun e he => absurd he List.not_mem_nil, List.Pairwise.nil⟩
  · rintro h t u e ⟨hstored, hapart⟩ hexec
    refine ⟨?_, List.pairwise_append.mpr ⟨hapart, List.pairwise_singleton _ _, ?_⟩⟩
    · intro e' he' decisionHash hmarks
      rcases List.mem_append.mp he' with he' | he'
      · exact mem_of_grants hexec (hstored e' he' decisionHash hmarks)
      · obtain rfl := List.mem_singleton.mp he'
        exact (new_of_marks hexec hmarks).2
    · intro e' he' e'' he'' decisionHash hmarks hmarks'
      obtain rfl := List.mem_singleton.mp he''
      exact (new_of_marks hexec hmarks').1 (hstored e' he' decisionHash hmarks)

variable {site : Site} {calls : Caller → GrantCall}

/-- Every call is started with its program. -/
def ServesGrants (site : Site) (calls : Caller → GrantCall) (i : Caller)
    (p : GrantProg GrantAnswer) : Prop :=
  p = site.program (calls i)

theorem entry_guarded (i : Caller) (p : GrantProg GrantAnswer) (hp : ServesGrants site calls i p) :
    p.Guarded (Permits site (calls i)) (Answered site (calls i)) [] := by
  rw [hp]
  exact program_guarded (calls i)

variable [DecidableEq Caller] {h : List (Executed Caller GrantOp.Resp)}
  {c : Config (grantWorld Caller) GrantAnswer}

/-- Two calls are not given the right for one hash. -/
theorem callers_of_marks (hc : History (grantWorld Caller) (ServesGrants site calls) h c)
    {i j : Caller} {decisionHash : Bytes}
    (hi : (⟨.issuer (.markConsumed decisionHash), .ok false⟩ : GrantAct) ∈ ownActs i h)
    (hj : (⟨.issuer (.markConsumed decisionHash), .ok false⟩ : GrantAct) ∈ ownActs j h) : i = j := by
  by_contra hij
  have hne : (⟨⟨.issuer (.markConsumed decisionHash), .ok false⟩, i⟩ :
      Executed Caller GrantOp.Resp) ≠ ⟨⟨.issuer (.markConsumed decisionHash), .ok false⟩, j⟩ :=
    fun heq => hij (congrArg Executed.caller heq)
  have := @apart_symm Caller
  exact (marks_once hc.executes).2.forall (mem_of_mem_ownActs hi) (mem_of_mem_ownActs hj) hne
    decisionHash rfl rfl

/-- **A lease is the request's own.** In any interleaving of any requests for access and any
orders of others: a lease asked for by a request is one the PDP granted to it, for its resource
and without a lifetime, behind the decision on this request, reported, verified and consumed; a
call asks for one lease at most, and two calls never on one hash; and a lease that a response
names was handed out to this call for its order, and the event of this order and lease was sent. -/
theorem leases_granted (site : Site) (calls : Caller → GrantCall)
    (hc : History (grantWorld Caller) (ServesGrants site calls) h c) :
    (∀ before after i req path ttl answer, h = before ++
        ⟨⟨.issuer (.issueLease path ttl), answer⟩, i⟩ :: after → calls i = .access req →
      ∃ requestId body requester signed,
        GrantedTo site req (ownActs i before) path ttl requestId body requester signed) ∧
    (∀ before after e, h = before ++ e :: after → IsLease e.op →
      (∀ act ∈ ownActs e.caller before, ¬ IsLease act.op) ∧
      ∃ decisionHash, (⟨.issuer (.markConsumed decisionHash), .ok false⟩ : GrantAct) ∈
          ownActs e.caller before ∧
        ∀ j, (⟨.issuer (.markConsumed decisionHash), .ok false⟩ : GrantAct) ∈ ownActs j h →
          j = e.caller) ∧
    ∀ i answer, c.procs i = some (.ret answer) → Answered site (calls i) (ownActs i h) answer := by
  refine ⟨?_, ?_, ?_⟩
  · intro before after i req path ttl answer hh hcall
    have hpermits := hc.guarded entry_guarded hh
    rw [hcall] at hpermits
    exact grantedTo_of_permits hpermits
  · intro before after e hh hlease
    obtain ⟨path, ttl, hop⟩ := hlease
    obtain ⟨order, d, hready, -, -⟩ := hc.guarded entry_guarded hh path ttl hop
    refine ⟨hready.first, d.decisionHash, hready.consumed, fun j hj => ?_⟩
    refine callers_of_marks hc hj ?_
    rw [hh, ownActs, List.filter_append, List.map_append]
    exact List.mem_append_left _ hready.consumed
  · intro i answer hret
    exact hc.guarded_ret entry_guarded hret

end Runs

/-! ### A request that is granted -/

/-- Everybody answers, and OpenBao hands out a lease. -/
def granting : (op : GrantOp) → List Bytes → op.Resp × List Bytes
  | .issuer (.verifyDecision _), consumed => (.ok ⟨true, ""⟩, consumed)
  | .issuer (.markConsumed decisionHash), consumed =>
      let marked := Issuance.InMemoryConsumedDecisionStore.markConsumed consumed decisionHash
      (.ok marked.1, marked.2)
  | .issuer .newV7, consumed => (.ok "01890000-0000-7000-8000-000000000000", consumed)
  | .issuer (.issueLease _ _), consumed =>
      (.ok ⟨"database/creds/db-billing-prod/lease", 900000000000⟩, consumed)
  | .record _, consumed => (.error "unavailable", consumed)

theorem grants_granting (op : GrantOp) (consumed : List Bytes) :
    Grants op consumed (granting op consumed).1 (granting op consumed).2 := by
  cases op with
  | record raw => rfl
  | issuer op =>
      cases op with
      | verifyDecision d => rfl
      | markConsumed decisionHash => exact ⟨rfl, rfl⟩
      | newV7 => rfl
      | issueLease path ttl => rfl

def sampleLease : Lease := ⟨"database/creds/db-billing-prod/lease", 900000000000⟩

section Granting

variable {order : EmissionOrder} {d : DecisionResponse} (hd : order.decision = some d)
  (hallow : d.effect = effectAllow) (hverb : order.verb = "db.connect")

include hd hallow hverb

theorem issuer_granting :
    (Issuance.Issuer.emit order).run (fun op => granting (.issuer op)) [] =
      (.ok ⟨true, d.reasons, sampleLease.id, sampleLease.leaseDuration,
        Issuance.issuedEvent order d "01890000-0000-7000-8000-000000000000" sampleLease⟩,
        [d.decisionHash]) := by
  unfold Issuance.Issuer.emit
  rw [hd]
  change (Issuance.Issuer.reported order d ⟨true, ""⟩).run _ [] = _
  unfold Issuance.Issuer.reported
  rw [if_neg (by decide), if_neg (not_not_intro hallow)]
  change (Issuance.Issuer.issue order d).run _ [d.decisionHash] = _
  unfold Issuance.Issuer.issue Issuance.openBaoPath
  rw [if_pos hverb]
  rfl

omit hd hallow hverb in
/-- A credential of the issuer is answered. -/
theorem api_emit_credential {σ : Type} {a : Issuance.API σ} {s s' : σ} {result : Issuance.Result}
    (h : a.issuer order s = (.ok result, s')) (hallowed : result.allowed = true) :
    (a.emit order s).1 = .ok ⟨true, result.reasons, result.leaseId,
      some (Issuance.durationpb result.leaseDuration)⟩ := by
  unfold Issuance.API.emit
  rw [h]
  dsimp only
  rw [if_pos hallowed]

theorem emit_granting : ((aloneIssuance granting).emit order []).1 =
    .ok ⟨true, d.reasons, sampleLease.id, some (Issuance.durationpb sampleLease.leaseDuration)⟩ :=
  api_emit_credential (a := aloneIssuance granting) (issuer_granting hd hallow hverb) rfl

end Granting

def sampleSite : Site where
  primitives := sampleDeployment.primitives
  message := sampleDeployment.message
  policyVersion := sampleDeployment.policyVersion
  sealer := sampleDeployment.sealer
  verifyingKey := sampleDeployment.verifyingKey

def sampleAccess : AccessCall where
  identityClient := sampleDeployment.identityClient
  call := sampleDeployment.call
  draw := sampleDraw
  assertion := aliceAssertion
  body := some selfApproved

theorem sampleAccess_grantable : (sampleSite.deployment sampleAccess).Grantable sampleDraw
    aliceAssertion selfApproved :=
  { selfApproved_grantable with }

/-- A request whose decision is known is answered with it. -/
theorem createAccessRequest_decided {σ : Type} {h : API σ} {draw : Draw} {assertion : Bytes}
    {body : AccessRequestBody} {s : σ} {requester : VerifyAssertionResponse} {requestId : String}
    {decision : Broker.Decision}
    (hidentified : h.broker.identityClient assertion body.expectedAuthorityDomain = .ok requester)
    (hvalid : requester.valid = true) (hdrawn : draw.newV7 = .ok requestId)
    (hdecided : h.broker.decide draw.requestedAt
      (accessRequest requestId draw.authenticatedAt body requester) = .ok decision) :
    h.createAccessRequest draw assertion (some body) s =
      h.respond requestId body requester decision s := by
  unfold API.createAccessRequest API.handle
  simp only [hidentified, hvalid, hdrawn, hdecided, Bool.not_true, Bool.false_eq_true, if_false]

theorem respond_leaseId {σ : Type} {h : API σ} {requestId : String} {body : AccessRequestBody}
    {requester : VerifyAssertionResponse} {signed : DecisionResponse} {s : σ} {r : EmissionResult}
    (hallow : signed.effect = effectAllow)
    (hemission : (h.credentialClient (emissionOrder requestId body requester signed)
      (h.recordPolicyDecided requestId body requester true signed s)).1 = .ok r)
    (hallowed : r.allowed = true) :
    (h.respond requestId body requester (.ofResponse signed) s).1.leaseId = some r.leaseId := by
  have hdecided : (Broker.Decision.ofResponse signed).allowed = true := beq_iff_eq.mpr hallow
  unfold API.respond
  rw [hdecided]
  change (API.withLease (h.credentialClient _ _).1 _).leaseId = _
  rw [hemission, API.withLease]
  dsimp only
  rw [if_pos hallowed]

/-- The response names the lease. -/
theorem sampleAccess_leased : ∃ resp consumed,
    (sampleSite.program (.access sampleAccess)).run granting [] = (.http resp, consumed) ∧
      resp.leaseId = some sampleLease.id := by
  obtain ⟨requester, hidentified, hvalid, requestId, hdrawn, d, hdecided, hallowed⟩ :=
    createAccessRequest_allowed_iff.mp
      (Deployment.allowed_iff_grantable (s := ()).mpr sampleAccess_grantable)
  rcases Broker.decide_cases hdecided with ⟨reason, rfl⟩ | ⟨signed, -, -, rfl⟩
  · cases hallowed
  have hrun := run_createAccessRequest granting (sampleSite.deployment sampleAccess).broker sampleDraw
    aliceAssertion (some selfApproved) []
  rw [createAccessRequest_decided (h := aloneApi granting _) hidentified hvalid hdrawn hdecided]
    at hrun
  have hallow : signed.effect = effectAllow := beq_iff_eq.mp hallowed
  refine ⟨_, _, Prog.run_bind granting _ _ _, ?_⟩
  change ((GrantProg.createAccessRequest (sampleSite.deployment sampleAccess).broker sampleDraw
    aliceAssertion (some selfApproved)).run granting []).1.leaseId = _
  rw [hrun]
  have hemission : ((aloneIssuance granting).emit
      (emissionOrder requestId selfApproved requester signed) []).1 =
      .ok ⟨true, signed.reasons, sampleLease.id,
        some (Issuance.durationpb sampleLease.leaseDuration)⟩ :=
    emit_granting rfl hallow rfl
  exact respond_leaseId (h := aloneApi granting _) hallow hemission rfl

/-- Alice's request in a run of its own: the lease it is answered with was handed out to it. -/
theorem leases_granted_alice : ∃ h c resp,
    History (grantWorld Nat) (ServesGrants sampleSite fun _ => .access sampleAccess) h c ∧
      c.procs 0 = some (.ret (.http resp)) ∧ resp.leaseId = some sampleLease.id ∧
      Handed sampleSite (.access sampleAccess) (ownActs 0 h) sampleLease.id := by
  obtain ⟨resp, consumed, hrun, hlease⟩ := sampleAccess_leased
  obtain ⟨c, hc, -, hprocs⟩ := History.alone (W := grantWorld Nat) (i := 0) grants_granting .init rfl
    (show ServesGrants sampleSite (fun _ => .access sampleAccess) 0 _ from rfl)
  have hzero : c.procs 0 = some (.ret (.http resp)) := by
    rw [hprocs, Function.update_self]
    exact congrArg (fun r => some (Prog.ret r)) (congrArg Prod.fst hrun)
  obtain ⟨-, -, hanswered⟩ := leases_granted sampleSite (fun _ => .access sampleAccess) hc
  exact ⟨_, c, resp, hc, hzero, hlease, hanswered 0 _ hzero _ hlease⟩

end ZeroSecret.Access
