import ZeroSecret.Access.Broker
import ZeroSecret.Base.Base64

/-!
# `apps/admin-api`: the quorum of a critical operation

`internal/quorum` counts the bearers whose assertions verify, each once.
`internal/httpapi` authenticates the caller first, bounds the request, calls
the module, removes the caller from the bearers and counts again. Every
operation that was evaluated is reported to audit-collector, the caller first.

A call to the verifier answers, fails, or gives an empty answer: reading that
one is a panic. Deadlines are not modelled, except that the audit phase may
stop between two events.
-/

namespace ZeroSecret.Admin

open Access (VerifyAssertionResponse)
open Audit (RawEvent RecordResult)
open Policy (Enumeration)

/-- `AssertionVerificationServiceClient`: assertion and expected domain. -/
abbrev IdentityClient : Type := Bytes → String → Except String (Option VerifyAssertionResponse)

/-! ## `internal/quorum` -/

namespace Quorum

def minimumThreshold : Int := 2

structure Result where
  reached : Bool
  distinctSubjects : List String
deriving DecidableEq

inductive Failure where
  | err (message : String)
  | panic (value : String)
deriving DecidableEq

/-- The loop over the assertions; `seen` are the keys of the map. -/
def collect (client : IdentityClient) (expectedAuthorityDomain : String) :
    List Bytes → List String → Except Failure (List String)
  | [], seen => .ok seen
  | assertion :: assertions, seen =>
      match client assertion expectedAuthorityDomain with
      | .error err => .error (.err ("vérification d'assertion de quorum : " ++ err))
      | .ok none =>
          .error (.panic "runtime error: invalid memory address or nil pointer dereference")
      | .ok (some resp) =>
          collect client expectedAuthorityDomain assertions
            (if resp.valid then seen.insert resp.subjectId else seen)

/-- `order` is the order in which the map is iterated. -/
def verifyQuorum (client : IdentityClient) (order : Enumeration)
    (expectedAuthorityDomain : String) (assertions : List Bytes) (threshold : Int) :
    Except Failure Result :=
  if threshold < minimumThreshold then
    .error (.panic ("quorum: threshold " ++ toString threshold ++
      " inférieur au plancher imposé (" ++ toString minimumThreshold ++ ")"))
  else
    match collect client expectedAuthorityDomain assertions [] with
    | .error failure => .error failure
    | .ok seen =>
        let distinct := order.val seen
        .ok ⟨decide (threshold ≤ distinct.length), distinct⟩

end Quorum

/-! ## `internal/httpapi` -/

def aalRequisPourInitier : String := "AAL3"

def motifExclusionInitiateur : String :=
  "assertion de porteur de l'initiateur ecartee du quorum (ADR-035)"

def maxAssertions : Nat := 64

structure QuorumRequest where
  assertions : List Bytes
  expectedAuthorityDomain : String
  threshold : Int
deriving DecidableEq

inductive HttpResponse where
  | error (status : Nat) (reason : String)
  /-- Status 200. -/
  | quorum (result : Quorum.Result)
deriving DecidableEq

structure API (σ : Type) where
  /-- The client of `quorum.Verifier`. -/
  verifier : IdentityClient
  identityClient : IdentityClient
  auditClient : RawEvent → σ → Except String RecordResult × σ
  expectedAuthorityDomain : String

/-- The order of the map, and at which bearer the ceiling of the audit phase
is found to be passed. -/
structure Draw where
  order : Enumeration
  ceiling : Nat → Bool

/-- `refusAppelant`. -/
structure RefusAppelant where
  status : Nat
  reason : String
deriving DecidableEq

namespace API

variable {σ : Type}

def verifyCaller (a : API σ) (assertion : Bytes) (enTeteBrut : String) :
    Except RefusAppelant VerifyAssertionResponse :=
  if assertion.length = 0 then .error ⟨401, "assertion_de_lappelant_absente"⟩
  else if Base64.encode assertion ≠ enTeteBrut then
    .error ⟨401, "assertion_de_lappelant_malformee"⟩
  else
    match a.identityClient assertion a.expectedAuthorityDomain with
    | .error _ => .error ⟨502, "verification_de_lappelant_indisponible"⟩
    | .ok none => .error ⟨502, "verification_de_lappelant_indisponible"⟩
    | .ok (some resp) =>
        if ¬ resp.valid then .error ⟨401, "assertion_de_lappelant_invalide"⟩
        else if resp.aal ≠ aalRequisPourInitier then
          .error ⟨403, "niveau_dauthentification_insuffisant"⟩
        else if resp.subjectId = "" ∨ resp.authMethod = "" then
          .error ⟨502, "verification_de_lappelant_incomplete"⟩
        else .ok resp

/-- The initiator leaves the bearers; the second part says whether it was one
of them. -/
def excludeInitiator (result : Quorum.Result) (initiateur : String) (threshold : Int) :
    Quorum.Result × Bool :=
  let porteurs := result.distinctSubjects.filter fun sujet => sujet ≠ initiateur
  (⟨decide (threshold ≤ porteurs.length), porteurs⟩,
    porteurs.length ≠ result.distinctSubjects.length)

def outcomeOf (result : Quorum.Result) : String := if result.reached then "success" else "denied"

/-- The event of the initiator, the only one with a level and a method. -/
def initiatorEvent (operationId authorityDomain : String) (caller : VerifyAssertionResponse)
    (result : Quorum.Result) (initiateurEtaitPorteur : Bool) : RawEvent where
  authorityDomain := authorityDomain
  eventType := "quorum.operation"
  actor := some ⟨caller.subjectId, "human", some caller.aal, some caller.authMethod⟩
  target := some ⟨"critical_operation", operationId⟩
  outcome := outcomeOf result
  context := if initiateurEtaitPorteur then some ⟨none, none, some motifExclusionInitiateur⟩
    else none
  decision := none

/-- The event of a bearer. -/
def bearerEvent (operationId authorityDomain subjectId : String) (result : Quorum.Result) :
    RawEvent where
  authorityDomain := authorityDomain
  eventType := "quorum.operation"
  actor := some ⟨subjectId, "human", none, none⟩
  target := some ⟨"critical_operation", operationId⟩
  outcome := outcomeOf result
  context := none
  decision := none

def recordQuorumInitiator (a : API σ) (operationId : String) (caller : VerifyAssertionResponse)
    (result : Quorum.Result) (initiateurEtaitPorteur : Bool) (s : σ) : σ :=
  (a.auditClient (initiatorEvent operationId a.expectedAuthorityDomain caller result
    initiateurEtaitPorteur) s).2

/-- The loop over the bearers: the ceiling ends it, a failure does not. -/
def recordBearers (a : API σ) (draw : Draw) (operationId : String) (result : Quorum.Result) :
    Nat → List String → σ → σ
  | _, [], s => s
  | i, subjectId :: subjects, s =>
      if draw.ceiling i then s
      else
        recordBearers a draw operationId result (i + 1) subjects
          (a.auditClient (bearerEvent operationId a.expectedAuthorityDomain subjectId result) s).2

def recordQuorumOperation (a : API σ) (draw : Draw) (operationId : String)
    (result : Quorum.Result) (s : σ) : σ :=
  a.recordBearers draw operationId result 0 result.distinctSubjects s

/-- The handler once the caller is known. -/
def evaluate (a : API σ) (draw : Draw) (operationId : String) (caller : VerifyAssertionResponse)
    (body : QuorumRequest) (s : σ) : HttpResponse × σ :=
  if maxAssertions < body.assertions.length then (.error 400 "trop_dassertions", s)
  else if body.expectedAuthorityDomain ≠ a.expectedAuthorityDomain then
    (.error 400 "domaine_dautorite_inattendu", s)
  else if body.threshold < Quorum.minimumThreshold then
    (.error 400 "seuil_de_quorum_invalide", s)
  else
    match Quorum.verifyQuorum a.verifier draw.order body.expectedAuthorityDomain body.assertions
      body.threshold with
    | .error (.panic _) => (.error 500 "defaut_interne", s)
    | .error (.err _) => (.error 502 "verification_des_porteurs_indisponible", s)
    | .ok result =>
        let (result, initiateurEtaitPorteur) :=
          excludeInitiator result caller.subjectId body.threshold
        let s := a.recordQuorumInitiator operationId caller result initiateurEtaitPorteur s
        let s := a.recordQuorumOperation draw operationId result s
        (.quorum result, s)

/-- `API.VerifyQuorum`; no body is one that is malformed or too large. -/
def verifyQuorum (a : API σ) (draw : Draw) (operationId : String) (assertion : Bytes)
    (enTeteBrut : String) (body : Option QuorumRequest) (s : σ) : HttpResponse × σ :=
  match body with
  | none => (.error 400 "corps_de_requete_malforme", s)
  | some body =>
      match a.verifyCaller assertion enTeteBrut with
      | .error refus => (.error refus.status refus.reason, s)
      | .ok caller => a.evaluate draw operationId caller body s

/-- The generated wrapper and `writeParamError`, for the header's list of
values. `bind` is the runtime's decoder of a `byte` parameter; a missing
header, a second value and a text it cannot decode are all refused as
authentication. -/
def serve (a : API σ) (bind : String → Option Bytes) (draw : Draw) (operationId : String)
    (header : List String) (body : Option QuorumRequest) (s : σ) : HttpResponse × σ :=
  match header with
  | [] => (.error 401 "assertion_de_lappelant_absente", s)
  | [value] =>
      match bind value with
      | none => (.error 401 "assertion_de_lappelant_malformee", s)
      | some assertion => a.verifyQuorum draw operationId assertion value body s
  | _ => (.error 401 "assertion_de_lappelant_malformee", s)

end API

end ZeroSecret.Admin
