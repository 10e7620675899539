import ZeroSecret.Base.History
import ZeroSecret.Audit.Appenders
import ZeroSecret.Crypto.IdentityAssertion
import ZeroSecret.Webauthn.Registration

/-!
# identity-provider: tables and statements

`store.rs` and the migrations of the schema `identity`. Each SQL statement is
atomic and runs at a time of the database clock, which never goes back. A
statement may fail without effect, and may commit with its reply lost.

Three fields are read by no program: a challenge remembers the calls that
consumed it, an authenticator the call that inserted it and the calls that
advanced its counter.
-/

namespace ZeroSecret.Identity

open Crypto Crypto.AuthenticatorProof Webauthn Interleave
open Audit (AuditOp AuditProg)
open IdentityAssertion (AssertionClaims AssertionSealer SealedAssertion)

/-! ## Tables -/

/-- A committed consumption: by which call, at what database time. -/
structure Consumption (Caller : Type) where
  caller : Caller
  at_ : Int

/-- A row of `identity.challenges`; times are in microseconds. -/
structure ChallengeRow (Caller : Type) where
  challenge : Bytes
  subjectId : String
  ceremonyKind : String
  expiresAt : Int
  usedAt : Option Int
  consumptions : List (Consumption Caller)

/-- The columns of `identity.authenticators`. -/
structure AuthenticatorColumns where
  credentialId : Bytes
  subjectId : String
  suite : String
  algorithm : String
  publicKey : Bytes
  signCount : Int
  aaguid : Bytes
  attestationFormat : String
  revokedAt : Option Int
  counterSupported : Bool

/-- A committed update of a counter. -/
structure Advance (Caller : Type) where
  caller : Caller
  signCount : UInt32

structure StoredAuthenticator (Caller : Type) extends AuthenticatorColumns where
  owner : Caller
  advances : List (Advance Caller)

/-- Both schemas, and the database clock. -/
structure IdentityDb (Caller : Type) where
  clock : Int
  challenges : List (ChallengeRow Caller)
  authenticators : List (StoredAuthenticator Caller)
  events : Audit.Table Caller

/-! ## Statements

What a statement answers and leaves when it commits at the time of the clock;
`none` is a violated constraint. -/

section Statements

variable {Caller : Type}

/-- `INSERT INTO identity.challenges … now() + make_interval(secs => $4)`. -/
def insertChallengeStmt (challenge : Bytes) (subjectId ceremonyKind : String) (ttlSeconds : Int)
    (s : IdentityDb Caller) : Option (Unit × IdentityDb Caller) :=
  if (∀ row ∈ s.challenges, row.challenge ≠ challenge) ∧
      ceremonyKind ∈ ["registration", "authentication"] then
    some ((), { s with challenges := s.challenges ++
      [⟨challenge, subjectId, ceremonyKind, s.clock + ttlSeconds * 1000000, none, []⟩] })
  else none

/-- `challenge = $1 AND ceremony_kind = $2 AND used_at IS NULL AND expires_at > now()`. -/
def ChallengeRow.consumable (challenge : Bytes) (kind : String) (now : Int)
    (row : ChallengeRow Caller) : Bool :=
  row.challenge == challenge && row.ceremonyKind == kind && row.usedAt.isNone &&
    decide (now < row.expiresAt)

/-- `SET used_at = now()`. -/
def ChallengeRow.consume (i : Caller) (now : Int) (row : ChallengeRow Caller) :
    ChallengeRow Caller :=
  { row with usedAt := some now, consumptions := row.consumptions ++ [⟨i, now⟩] }

/-- `UPDATE identity.challenges … RETURNING subject_id`. -/
def consumeChallengeStmt (i : Caller) (challenge : Bytes) (kind : String)
    (s : IdentityDb Caller) : Option (Option String × IdentityDb Caller) :=
  some ((s.challenges.find? (ChallengeRow.consumable challenge kind s.clock)).map
      ChallengeRow.subjectId,
    { s with challenges := s.challenges.map fun row =>
      if row.consumable challenge kind s.clock then row.consume i s.clock else row })

/-- `INSERT INTO identity.authenticators`, with the constraints of migration
003. -/
def insertAuthenticatorStmt (i : Caller) (columns : AuthenticatorColumns)
    (s : IdentityDb Caller) : Option (Unit × IdentityDb Caller) :=
  if (∀ row ∈ s.authenticators, row.credentialId ≠ columns.credentialId) ∧
      columns.algorithm ∈ ["es256", "eddsa"] ∧ columns.attestationFormat ∈ ["none", "packed"] then
    some ((), { s with authenticators := s.authenticators ++ [⟨columns, i, []⟩] })
  else none

/-- `SELECT … FROM identity.authenticators WHERE credential_id = $1`. -/
def selectAuthenticatorStmt (credentialId : Bytes) (s : IdentityDb Caller) :
    Option (Option AuthenticatorColumns × IdentityDb Caller) :=
  some ((s.authenticators.find? fun row => row.credentialId == credentialId).map
    StoredAuthenticator.toAuthenticatorColumns, s)

/-- `SELECT credential_id … WHERE subject_id = $1 AND revoked_at IS NULL`. -/
def selectCredentialIdsStmt (subjectId : String) (s : IdentityDb Caller) :
    Option (List Bytes × IdentityDb Caller) :=
  some ((s.authenticators.filter fun row => row.subjectId == subjectId && row.revokedAt.isNone).map
    fun row => row.credentialId, s)

/-- `credential_id = $1 AND sign_count < $2`. -/
def StoredAuthenticator.advanceable (credentialId : Bytes) (received : UInt32)
    (row : StoredAuthenticator Caller) : Bool :=
  row.credentialId == credentialId && decide (row.signCount < received.toNat)

/-- `SET sign_count = $2`. -/
def StoredAuthenticator.advance (i : Caller) (received : UInt32)
    (row : StoredAuthenticator Caller) : StoredAuthenticator Caller :=
  { row with signCount := received.toNat, advances := row.advances ++ [⟨i, received⟩] }

/-- `UPDATE identity.authenticators`, answered with the number of rows. -/
def advanceSignCountStmt (i : Caller) (credentialId : Bytes) (received : UInt32)
    (s : IdentityDb Caller) : Option (Nat × IdentityDb Caller) :=
  some (s.authenticators.countP (StoredAuthenticator.advanceable credentialId received),
    { s with authenticators := s.authenticators.map fun row =>
      if row.advanceable credentialId received then row.advance i received else row })

end Statements

/-! ## Operations -/

inductive IdentityOp where
  | newChallenge
  | insertChallenge (challenge : Bytes) (subjectId ceremonyKind : String) (ttlSeconds : Int)
  | consumeChallenge (challenge : Bytes) (kind : String)
  | insertAuthenticator (columns : AuthenticatorColumns)
  | selectAuthenticator (credentialId : Bytes)
  | selectCredentialIds (subjectId : String)
  | advanceSignCount (credentialId : Bytes) (received : UInt32)
  | sealAssertion (sealer : AssertionSealer) (claims : AssertionClaims)
  | audit (op : AuditOp)

/-- Answers; `sealAssertion` answers `none` when the blocking task does not
come back. -/
def IdentityOp.Resp : IdentityOp → Type
  | .newChallenge => Challenge
  | .insertChallenge _ _ _ _ => Except String Unit
  | .consumeChallenge _ _ => Except String (Option String)
  | .insertAuthenticator _ => Except String Unit
  | .selectAuthenticator _ => Except String (Option AuthenticatorColumns)
  | .selectCredentialIds _ => Except String (List Bytes)
  | .advanceSignCount _ _ => Except String Nat
  | .sealAssertion _ _ => Option (Except IdentityAssertion.SealError SealedAssertion)
  | .audit op => op.Resp

/-- A statement runs at some time not before the clock: it fails without
effect, or commits, and then its reply may be lost. -/
def Statement {Caller ρ : Type} (f : IdentityDb Caller → Option (ρ × IdentityDb Caller))
    (s : IdentityDb Caller) (r : Except String ρ) (s' : IdentityDb Caller) : Prop :=
  ∃ now, s.clock ≤ now ∧
    ((∃ e, r = .error e ∧ s' = { s with clock := now }) ∨
      ∃ a, f { s with clock := now } = some (a, s') ∧ (r = .ok a ∨ ∃ e, r = .error e))

/-- What an operation of call `i` may do. `sealer` is the one behind the
sealing service of audit-collector; every HSM answer is possible. -/
def identityExec {Caller : Type} (P : Primitives) (sealer : AuditSeal.AuditSealer) (i : Caller) :
    (op : IdentityOp) → IdentityDb Caller → op.Resp → IdentityDb Caller → Prop
  | .newChallenge, s, _, s' => s' = s
  | .insertChallenge ch sub kind ttl, s, r, s' =>
      Statement (insertChallengeStmt ch sub kind ttl) s r s'
  | .consumeChallenge ch kind, s, r, s' => Statement (consumeChallengeStmt i ch kind) s r s'
  | .insertAuthenticator columns, s, r, s' => Statement (insertAuthenticatorStmt i columns) s r s'
  | .selectAuthenticator cred, s, r, s' => Statement (selectAuthenticatorStmt cred) s r s'
  | .selectCredentialIds sub, s, r, s' => Statement (selectCredentialIdsStmt sub) s r s'
  | .advanceSignCount cred received, s, r, s' =>
      Statement (advanceSignCountStmt i cred received) s r s'
  | .sealAssertion local_ claims, s, r, s' =>
      s' = s ∧ (r = none ∨ ∃ hsm, r = some (local_.seal P hsm claims))
  | .audit op, s, r, s' =>
      ∃ events, Audit.auditExec P sealer i op s.events r events ∧ s' = { s with events := events }

/-- Empty tables, at the time `start` of the database clock. -/
def identityWorld (Caller : Type) (P : Primitives) (sealer : AuditSeal.AuditSealer)
    (start : Int) : World Caller IdentityOp IdentityOp.Resp where
  State := IdentityDb Caller
  init := ⟨start, [], [], []⟩
  exec := identityExec P sealer

abbrev IdentityProg (α : Type) : Type := Prog IdentityOp IdentityOp.Resp α

/-- A program over the audit schema alone. -/
def liftAudit {α : Type} : AuditProg α → IdentityProg α := Prog.lift .audit fun _ r => r

/-! ## Available services -/

/-- One call's environment when nothing fails: what the generator draws, what
the assertion HSM signs, and the services behind the audit schema. -/
structure IdentityServices where
  challenge : Challenge
  assertionHsm : AuditSeal.HsmAnswer
  audit : Audit.Services

/-- A statement that runs at the time of the clock and answers. -/
def commit {Caller ρ : Type} (f : IdentityDb Caller → Option (ρ × IdentityDb Caller))
    (s : IdentityDb Caller) : Except String ρ × IdentityDb Caller :=
  match f s with
  | some (a, s') => (.ok a, s')
  | none => (.error "duplicate key value violates unique constraint", s)

def IdentityServices.answer {Caller : Type} (P : Primitives) (sealer : AuditSeal.AuditSealer)
    (env : IdentityServices) (i : Caller) :
    (op : IdentityOp) → IdentityDb Caller → op.Resp × IdentityDb Caller
  | .newChallenge, s => (env.challenge, s)
  | .insertChallenge ch sub kind ttl, s => commit (insertChallengeStmt ch sub kind ttl) s
  | .consumeChallenge ch kind, s => commit (consumeChallengeStmt i ch kind) s
  | .insertAuthenticator columns, s => commit (insertAuthenticatorStmt i columns) s
  | .selectAuthenticator cred, s => commit (selectAuthenticatorStmt cred) s
  | .selectCredentialIds sub, s => commit (selectCredentialIdsStmt sub) s
  | .advanceSignCount cred received, s => commit (advanceSignCountStmt i cred received) s
  | .sealAssertion local_ claims, s => (some (local_.seal P env.assertionHsm claims), s)
  | .audit op, s =>
      ((env.audit.answer P sealer i op s.events).1,
        { s with events := (env.audit.answer P sealer i op s.events).2 })

theorem statement_commit {Caller ρ : Type}
    (f : IdentityDb Caller → Option (ρ × IdentityDb Caller)) (s : IdentityDb Caller) :
    Statement f s (commit f s).1 (commit f s).2 := by
  refine ⟨s.clock, le_refl _, ?_⟩
  unfold commit
  cases hf : f s with
  | none => exact Or.inl ⟨_, rfl, rfl⟩
  | some p => exact Or.inr ⟨p.1, rfl, Or.inl rfl⟩

/-- They are answers the world allows. -/
theorem IdentityServices.answer_exec {Caller : Type} (P : Primitives)
    (sealer : AuditSeal.AuditSealer) (env : IdentityServices) (i : Caller) (op : IdentityOp)
    (s : IdentityDb Caller) :
    identityExec P sealer i op s (env.answer P sealer i op s).1
      (env.answer P sealer i op s).2 := by
  cases op with
  | newChallenge => rfl
  | insertChallenge ch sub kind ttl => exact statement_commit _ s
  | consumeChallenge ch kind => exact statement_commit _ s
  | insertAuthenticator columns => exact statement_commit _ s
  | selectAuthenticator cred => exact statement_commit _ s
  | selectCredentialIds sub => exact statement_commit _ s
  | advanceSignCount cred received => exact statement_commit _ s
  | sealAssertion local_ claims => exact ⟨rfl, Or.inr ⟨env.assertionHsm, rfl⟩⟩
  | audit op => exact ⟨_, env.audit.answer_exec P sealer i op s.events, rfl⟩

/-! ## `IdentityStore` -/

def Sql.insertChallenge (challenge : Bytes) (subjectId ceremonyKind : String) (ttlSeconds : Int) :
    IdentityProg (Except String Unit) :=
  Prog.perform (IdentityOp.insertChallenge challenge subjectId ceremonyKind ttlSeconds)
def Sql.consumeChallenge (challenge : Bytes) (kind : String) :
    IdentityProg (Except String (Option String)) :=
  Prog.perform (IdentityOp.consumeChallenge challenge kind)
def Sql.insertAuthenticator (columns : AuthenticatorColumns) : IdentityProg (Except String Unit) :=
  Prog.perform (IdentityOp.insertAuthenticator columns)
def Sql.selectAuthenticator (credentialId : Bytes) :
    IdentityProg (Except String (Option AuthenticatorColumns)) :=
  Prog.perform (IdentityOp.selectAuthenticator credentialId)
def Sql.selectCredentialIds (subjectId : String) : IdentityProg (Except String (List Bytes)) :=
  Prog.perform (IdentityOp.selectCredentialIds subjectId)
def Sql.advanceSignCount (credentialId : Bytes) (received : UInt32) :
    IdentityProg (Except String Nat) :=
  Prog.perform (IdentityOp.advanceSignCount credentialId received)

structure ConsumedChallenge where
  subjectId : String
  ceremonyKind : String

structure AuthenticatorRow where
  subjectId : String
  credentialId : Bytes
  algorithm : Algorithm
  publicKey : Bytes
  counterSupported : Bool
  signCount : UInt32
  revoked : Bool

def algorithmToColumn : Algorithm → String
  | .es256 => "es256"
  | .edDsa => "eddsa"

def algorithmFromColumn (value : String) : Option Algorithm :=
  if value = "es256" then some .es256
  else if value = "eddsa" then some .edDsa
  else none

/-- The row a `SELECT` gives; an unknown algorithm is no row. -/
def authenticatorRow (columns : AuthenticatorColumns) : Option AuthenticatorRow :=
  (algorithmFromColumn columns.algorithm).map fun algorithm => {
    subjectId := columns.subjectId
    credentialId := columns.credentialId
    algorithm := algorithm
    publicKey := columns.publicKey
    counterSupported := columns.counterSupported
    signCount := UInt32.ofNat (max columns.signCount 0).toNat
    revoked := columns.revokedAt.isSome }

namespace IdentityStore

def issueChallenge (challenge : Bytes) (subjectId ceremonyKind : String) (ttlSeconds : Int) :
    IdentityProg (Except String Unit) :=
  Sql.insertChallenge challenge subjectId ceremonyKind ttlSeconds

def consumeChallenge (challenge : Bytes) (expectedCeremonyKind : String) :
    IdentityProg (Except String (Option ConsumedChallenge)) := do
  match ← Sql.consumeChallenge challenge expectedCeremonyKind with
  | .error err => return .error err
  | .ok row => return .ok (row.map fun subjectId => ⟨subjectId, expectedCeremonyKind⟩)

def insertAuthenticator (subjectId : String) (credentialId : Bytes) (algorithm : Algorithm)
    (publicKey : Bytes) (signCount : UInt32) (aaguid : Bytes) (attestationFormat : String)
    (counterSupported : Bool) : IdentityProg (Except String Unit) :=
  Sql.insertAuthenticator {
    credentialId, subjectId, publicKey, aaguid, attestationFormat, counterSupported
    suite := suiteV1
    algorithm := algorithmToColumn algorithm
    signCount := signCount.toNat
    revokedAt := none }

def findAuthenticator (credentialId : Bytes) :
    IdentityProg (Except String (Option AuthenticatorRow)) := do
  match ← Sql.selectAuthenticator credentialId with
  | .error err => return .error err
  | .ok row => return .ok (row.bind authenticatorRow)

def credentialIdsForSubject (subjectId : String) : IdentityProg (Except String (List Bytes)) :=
  Sql.selectCredentialIds subjectId

/-- `rows_affected() == 1`. -/
def advanceSignCount (credentialId : Bytes) (received : UInt32) :
    IdentityProg (Except String Bool) := do
  match ← Sql.advanceSignCount credentialId received with
  | .error err => return .error err
  | .ok rows => return .ok (rows == 1)

end IdentityStore

end ZeroSecret.Identity
