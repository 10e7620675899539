import ZeroSecret.Base.Interleave
import ZeroSecret.Audit.Chain
import ZeroSecret.Audit.Sealer

/-!
# The two writers of `audit.events`

`Collector.Record` of audit-collector and `seal_and_append_audit_event` of
identity-provider, as programs over separate operations: the two SQL
statements, the two methods of the sealing service, the sealing done inside
identity-provider, the clock, the identifier generator and the JSON
marshaller. Every operation may fail; an `INSERT` may commit and still be
reported as failed; a caller may stop for ever between two operations.

A row remembers the call that inserted it. No program reads that field.
-/

namespace ZeroSecret.Audit

open Crypto Crypto.AuditSeal Interleave

/-! ## The table -/

/-- A row of `audit.events`. The `jsonb` columns hold the text they were
given; nothing reads them back. -/
structure Row where
  eventId : String
  sequence : Int
  occurredAt : String
  authorityDomain : String
  eventType : String
  actor : Bytes
  target : Option Bytes
  outcome : String
  context : Option Bytes
  prevHash : String
  signature : Bytes
  sealedBytes : Bytes

structure StoredRow (Caller : Type) extends Row where
  owner : Caller

abbrev Table (Caller : Type) : Type := List (StoredRow Caller)

/-- `ORDER BY sequence DESC LIMIT 1`. -/
def latestRow {Caller : Type} : List (StoredRow Caller) → Option (StoredRow Caller)
  | [] => none
  | r :: rs =>
      match latestRow rs with
      | none => some r
      | some best => if r.sequence ≤ best.sequence then some best else some r

/-- `SELECT sequence, sealed_bytes … WHERE authority_domain = $1 …`. -/
def selectHead {Caller : Type} (table : Table Caller) (authorityDomain : String) :
    Option (Int × Bytes) :=
  (latestRow (table.filter fun r => r.authorityDomain = authorityDomain)).map fun r =>
    (r.sequence, r.sealedBytes)

def isLowerHex (c : Char) : Bool := ('0' ≤ c && c ≤ '9') || ('a' ≤ c && c ≤ 'f')

/-- The constraints of migration 002. -/
def Admits {Caller : Type} (table : Table Caller) (row : Row) : Prop :=
  (∀ r ∈ table, r.eventId ≠ row.eventId) ∧
  (∀ r ∈ table, r.authorityDomain = row.authorityDomain → r.sequence ≠ row.sequence) ∧
  row.outcome ∈ ["success", "denied", "error"] ∧
  ((Json.chars row.prevHash).length = 64 ∧ (Json.chars row.prevHash).all isLowerHex)

instance {Caller : Type} (table : Table Caller) (row : Row) : Decidable (Admits table row) :=
  inferInstanceAs (Decidable (_ ∧ _ ∧ _ ∧ _))

/-! ## Operations -/

inductive Message where
  | actor (actor : Option ProtoActor)
  | target (target : ProtoTarget)
  | context (context : ProtoContext)

inductive AuditOp where
  | selectHead (authorityDomain : String)
  | hashPrevious (sealedBytes : Bytes)
  | newV7
  | now
  | sealRpc (request : SealRequest)
  | sealBlocking (sealer : AuditSealer) (fields : AuditEventFields)
  | marshal (message : Message)
  | insert (row : Row)

/-- Answers. A failure carries the text of the driver or of the transport;
`sealBlocking` answers `none` when the blocking task does not come back. -/
def AuditOp.Resp : AuditOp → Type
  | .selectHead _ => Except String (Option (Int × Bytes))
  | .hashPrevious _ => Except String Bytes
  | .newV7 => Except String String
  | .now => Int
  | .sealRpc _ => Except Status Bytes
  | .sealBlocking _ _ => Option (Except SealError Bytes)
  | .marshal _ => Except String Bytes
  | .insert _ => Except String Unit

/-- What an operation of caller `i` may do. `sealer` is the one behind the
sealing service; every HSM answer is possible. -/
def auditExec {Caller : Type} (P : Primitives) (sealer : AuditSealer) (i : Caller) :
    (op : AuditOp) → Table Caller → op.Resp → Table Caller → Prop
  | .selectHead d, s, r, s' => s' = s ∧ ((∃ e, r = .error e) ∨ r = .ok (selectHead s d))
  | .hashPrevious b, s, r, s' =>
      s' = s ∧ ((∃ e, r = .error e) ∨ r = .ok (SealerService.hashPrevious P b))
  | .newV7, s, _, s' => s' = s
  | .now, s, _, s' => s' = s
  | .sealRpc req, s, r, s' =>
      s' = s ∧ ((∃ e, r = .error e) ∨ ∃ hsm, r = SealerService.seal P sealer hsm req)
  | .sealBlocking local_ fields, s, r, s' =>
      s' = s ∧ (r = none ∨ ∃ hsm, r = some (local_.seal P hsm fields))
  | .marshal _, s, _, s' => s' = s
  | .insert row, s, r, s' =>
      (∃ e, r = .error e ∧ s' = s) ∨ (Admits s row ∧ s' = s ++ [⟨row, i⟩])

def auditWorld (Caller : Type) (P : Primitives) (sealer : AuditSealer) :
    World Caller AuditOp AuditOp.Resp where
  State := Table Caller
  init := []
  exec := auditExec P sealer

abbrev AuditProg (α : Type) : Type := Prog AuditOp AuditOp.Resp α

def Db.selectHead (authorityDomain : String) :
    AuditProg (Except String (Option (Int × Bytes))) :=
  Prog.perform (AuditOp.selectHead authorityDomain)
def Db.insert (row : Row) : AuditProg (Except String Unit) := Prog.perform (AuditOp.insert row)
def SealingClient.hashPrevious (sealedBytes : Bytes) : AuditProg (Except String Bytes) :=
  Prog.perform (AuditOp.hashPrevious sealedBytes)
def SealingClient.seal (request : SealRequest) : AuditProg (Except Status Bytes) :=
  Prog.perform (AuditOp.sealRpc request)
def spawnBlockingSeal (sealer : AuditSealer) (fields : AuditEventFields) :
    AuditProg (Option (Except SealError Bytes)) :=
  Prog.perform (AuditOp.sealBlocking sealer fields)
def uuidNewV7 : AuditProg (Except String String) := Prog.perform AuditOp.newV7
def systemNow : AuditProg Int := Prog.perform AuditOp.now
def protojsonMarshal (message : Message) : AuditProg (Except String Bytes) :=
  Prog.perform (AuditOp.marshal message)

/-! ## Machine integers -/

/-- `uint64(sequence)`, `sequence as u64`. -/
def asU64 (sequence : Int) : UInt64 := UInt64.ofNat (sequence % 2 ^ 64).toNat

/-- `int64(sequence)`, `sequence as i64`. -/
def asI64 (sequence : UInt64) : Int :=
  if sequence.toNat < 2 ^ 63 then sequence.toNat else sequence.toNat - 2 ^ 64

/-! ## audit-collector -/

structure RawEvent where
  authorityDomain : String
  eventType : String
  actor : Option ProtoActor
  target : Option ProtoTarget
  outcome : String
  context : Option ProtoContext
  decision : Option ProtoDecision

structure RecordResult where
  accepted : Bool
  reason : String
  eventId : String
  sequence : UInt64

structure ApiError where
  status : Nat
  reason : String

/-- How a call ends: audit-collector's result or error, identity-provider's
success or HTTP error, or a panic. -/
inductive CallResult where
  | recorded (result : RecordResult)
  | recordError (message : String)
  | appended
  | apiError (e : ApiError)
  | panicked

structure ChainHead where
  nextSequence : UInt64
  prevSealedBytes : Option Bytes

/-- `Store.ChainHead`. -/
def Store.chainHead (authorityDomain : String) : AuditProg (Except String ChainHead) := do
  match ← Db.selectHead authorityDomain with
  | .error err => return .error ("lecture de la tête de chaîne : " ++ err)
  | .ok none => return .ok ⟨0, none⟩
  | .ok (some (sequence, sealedBytes)) =>
      return .ok ⟨asU64 sequence + 1, some sealedBytes⟩

/-- `Store.Append`. -/
def Store.append (row : Row) : AuditProg (Except String Unit) := do
  match ← Db.insert row with
  | .error err => return .error ("ajout à la chaîne : " ++ err)
  | .ok () => return .ok ()

/-- `optionalProtoJSON`: `none` is the panic. -/
def optionalProtoJSON : Option Message → AuditProg (Option (Option Bytes))
  | none => return some none
  | some m => do
      match ← protojsonMarshal m with
      | .error _ => return none
      | .ok b => return some (some b)

def collectorSignatureJSON : Bytes := octets "\x7b\"suite\":\"audit-seal/v1\"\x7d"

/-- The hash of the head, the root when there is none. -/
def Collector.prevHash (head : ChainHead) : AuditProg (Except String Bytes) :=
  match head.prevSealedBytes with
  | none => return .ok chainRoot.val
  | some sealedBytes => do
      match ← SealingClient.hashPrevious sealedBytes with
      | .error err => return .error ("hachage de l'événement précédent : " ++ err)
      | .ok digest => return .ok digest

/-- The statement of `Collector.Record` once the event is sealed. -/
def Collector.persist (raw : RawEvent) (head : ChainHead) (prevHash : Bytes) (eventId : String)
    (occurredAt : Int) (sealedBytes : Bytes) : AuditProg CallResult := do
  match ← protojsonMarshal (.actor raw.actor) with
  | .error err => return .recordError ("sérialisation de l'acteur : " ++ err)
  | .ok actorJSON =>
      match ← optionalProtoJSON (raw.target.map .target) with
      | none => return .panicked
      | some targetJSON =>
          match ← optionalProtoJSON (raw.context.map .context) with
          | none => return .panicked
          | some contextJSON =>
              match ← Store.append {
                eventId := eventId
                sequence := asI64 head.nextSequence
                occurredAt := rfc3339FromSeconds occurredAt
                authorityDomain := raw.authorityDomain
                eventType := raw.eventType
                actor := actorJSON
                target := targetJSON
                outcome := raw.outcome
                context := contextJSON
                prevHash := hexEncode prevHash
                signature := collectorSignatureJSON
                sealedBytes := sealedBytes } with
              | .error err => return .recordError ("persistance : " ++ err)
              | .ok () => return .recorded ⟨true, "", eventId, head.nextSequence⟩

def sealRequestOf (raw : RawEvent) (head : ChainHead) (prevHash : Bytes) (eventId : String)
    (occurredAt : Int) : SealRequest where
  eventId := eventId
  sequence := head.nextSequence
  prevHash := prevHash
  occurredAt := some ⟨occurredAt, 0⟩
  authorityDomain := raw.authorityDomain
  eventType := raw.eventType
  actor := raw.actor
  target := raw.target
  outcome := raw.outcome
  context := raw.context
  decision := raw.decision

/-- A field the sealer refuses is a refusal of the event; anything else is an
outage. -/
def Collector.sealRefusal (status : Status) : CallResult :=
  if status.code = .invalidArgument then .recorded ⟨false, status.message, "", 0⟩
  else .recordError ("scellement indisponible : " ++ status.toString)

/-- `Collector.Record`. -/
def Collector.record (raw : RawEvent) : AuditProg CallResult := do
  match ← Store.chainHead raw.authorityDomain with
  | .error err => return .recordError ("lecture de la tête de chaîne : " ++ err)
  | .ok head =>
      match ← Collector.prevHash head with
      | .error err => return .recordError err
      | .ok prevHash =>
          match ← uuidNewV7 with
          | .error err => return .recordError ("génération d'event_id : " ++ err)
          | .ok eventId =>
              let occurredAt ← systemNow
              match ← SealingClient.seal
                (sealRequestOf raw head prevHash eventId occurredAt) with
              | .error status => return Collector.sealRefusal status
              | .ok sealedBytes =>
                  Collector.persist raw head prevHash eventId occurredAt sealedBytes

/-! ## identity-provider -/

namespace ApiError

def internal : ApiError := ⟨500, "erreur_interne"⟩
def storeUnavailable : ApiError := ⟨503, "base_de_donnees_indisponible"⟩
def sealingUnavailable : ApiError := ⟨503, "scellement_indisponible"⟩

end ApiError

/-- What `seal_and_append_audit_event` reads of the application state. -/
structure AppState where
  authorityDomain : String
  auditSealer : AuditSealer

structure AuditStore.ChainHead where
  nextSequence : UInt64
  prevHash : Digest

/-- `AuditStore::chain_head`. -/
def AuditStore.chainHead (P : Primitives) (authorityDomain : String) :
    AuditProg (Except String AuditStore.ChainHead) := do
  match ← Db.selectHead authorityDomain with
  | .error err => return .error err
  | .ok none => return .ok ⟨0, chainRoot⟩
  | .ok (some (sequence, sealedBytes)) =>
      return .ok ⟨asU64 sequence + 1, hashSealedEvent P sealedBytes⟩

/-- `now_rfc3339`: `none` is the panic on a clock before 1970. -/
def nowRfc3339 : AuditProg (Option String) := do
  let seconds ← systemNow
  if seconds < 0 then return none else return some (rfc3339FromSeconds seconds)

/-- An explicit identifier comes with its target. -/
structure ExplicitTarget where
  eventId : String
  targetType : String
  id : String

def eventIdString (explicit : Option ExplicitTarget) : AuditProg (Option String) :=
  match explicit with
  | some e => return some e.eventId
  | none => do
      -- `Uuid::now_v7` has no error path: a failure is a panic
      match ← uuidNewV7 with
      | .error _ => return none
      | .ok id => return some id

/-- The two `expect`s on the target: `none` is the panic. -/
def explicitTarget : Option ExplicitTarget → Option (Option Target)
  | none => some none
  | some e =>
      match ShortText.new e.targetType, ShortText.new e.id with
      | .ok targetType, .ok id => some (some ⟨targetType, id⟩)
      | _, _ => none

/-- `justification.map(|j| Context { .., justification: Justification::new(j).ok() })`. -/
def justificationContext (justification : Option String) : Option Context :=
  justification.map fun j => ⟨none, none, (Justification.new j).toOption⟩

/-- The fields checked before the clock is read. -/
def positionFields (head : AuditStore.ChainHead) (eventId : String) :
    Except FieldError (EventId × Sequence) := do
  let eventId ← EventId.new eventId
  let sequence ← Sequence.new head.nextSequence.toNat
  .ok (eventId, sequence)

/-- The fields checked after it. -/
def eventFields (state : AppState) (eventType : EventType) (subjectId : String)
    (target : Option Target) (justification : Option String) (outcome : Outcome)
    (prevHash : Digest) (position : EventId × Sequence) (occurredAt : String) :
    Except FieldError AuditEventFields := do
  let occurredAt ← Timestamp.new occurredAt
  let authorityDomain ← AuthorityDomain.new state.authorityDomain
  let subjectId ← SubjectId.new subjectId
  .ok {
    eventId := position.1
    sequence := position.2
    occurredAt, authorityDomain, eventType, target, outcome, prevHash
    actor := { subjectId, kind := .human, aal := none, authMethod := none }
    context := justificationContext justification
    decision := none }

def eventTypeStr (t : EventType) : String := t.asContractStr

def outcomeStr (o : Outcome) : String := o.asContractStr

def actorJson (subjectId : String) : Bytes :=
  Json.toVec (.obj [("kind", .str "human"), ("subject_id", .str subjectId)])

def signatureJson : Bytes := Json.toVec (.obj [("suite", .str suiteV1)])

def sealAndAppendAuditEvent (P : Primitives) (state : AppState) (eventType : EventType)
    (subjectId : String) (explicit : Option ExplicitTarget) (justification : Option String)
    (outcome : Outcome) : AuditProg CallResult := do
  match ← AuditStore.chainHead P state.authorityDomain with
  | .error _ => return .apiError .storeUnavailable
  | .ok head =>
  match ← eventIdString explicit with
  | none => return .panicked
  | some eventId =>
  match explicitTarget explicit with
  | none => return .panicked
  | some target =>
  match positionFields head eventId with
  | .error _ => return .apiError .internal
  | .ok position =>
  match ← nowRfc3339 with
  | none => return .panicked
  | some occurredAt =>
  match eventFields state eventType subjectId target justification outcome head.prevHash
      position occurredAt with
  | .error _ => return .apiError .internal
  | .ok fields =>
  match ← spawnBlockingSeal state.auditSealer fields with
  | none => return .apiError .internal
  | some (.error _) => return .apiError .sealingUnavailable
  | some (.ok sealedBytes) =>
  match ← nowRfc3339 with
  | none => return .panicked
  | some insertedAt =>
  match ← Db.insert {
    eventId := eventId
    sequence := asI64 head.nextSequence
    occurredAt := insertedAt
    authorityDomain := state.authorityDomain
    eventType := eventTypeStr eventType
    actor := actorJson subjectId
    target := none
    outcome := outcomeStr outcome
    context := none
    prevHash := hexEncode head.prevHash.val
    signature := signatureJson
    sealedBytes := sealedBytes } with
  | .error _ => return .apiError .storeUnavailable
  | .ok () => return .appended

/-! ## Available services -/

/-- One call's environment when nothing fails: the HSM, the identifier and the
time it is given, the marshaller. -/
structure Services where
  hsm : HsmAnswer
  newV7 : String
  now : Int
  marshal : Message → Bytes

/-- The answers of available services to caller `i`. -/
def Services.answer {Caller : Type} (P : Primitives) (sealer : AuditSealer)
    (env : Services) (i : Caller) :
    (op : AuditOp) → Table Caller → op.Resp × Table Caller
  | .selectHead d, s => (.ok (Audit.selectHead s d), s)
  | .hashPrevious b, s => (.ok (SealerService.hashPrevious P b), s)
  | .newV7, s => (.ok env.newV7, s)
  | .now, s => (env.now, s)
  | .sealRpc req, s => (SealerService.seal P sealer env.hsm req, s)
  | .sealBlocking local_ fields, s => (some (local_.seal P env.hsm fields), s)
  | .marshal m, s => (.ok (env.marshal m), s)
  | .insert row, s =>
      if Admits s row then (.ok (), s ++ [⟨row, i⟩])
      else (.error "duplicate key value violates unique constraint", s)

/-- They are answers the world allows. -/
theorem Services.answer_exec {Caller : Type} (P : Primitives) (sealer : AuditSealer)
    (env : Services) (i : Caller) (op : AuditOp) (s : Table Caller) :
    auditExec P sealer i op s (env.answer P sealer i op s).1 (env.answer P sealer i op s).2 := by
  cases op with
  | selectHead d => exact ⟨rfl, Or.inr rfl⟩
  | hashPrevious b => exact ⟨rfl, Or.inr rfl⟩
  | newV7 => rfl
  | now => rfl
  | sealRpc req => exact ⟨rfl, Or.inr ⟨env.hsm, rfl⟩⟩
  | sealBlocking local_ fields => exact ⟨rfl, Or.inr ⟨env.hsm, rfl⟩⟩
  | marshal m => rfl
  | insert row =>
      by_cases h : Admits s row
      · simp only [Services.answer, if_pos h]
        exact Or.inr ⟨h, rfl⟩
      · simp only [Services.answer, if_neg h]
        exact Or.inl ⟨_, rfl, rfl⟩

/-- A call of either writer, with any argument. -/
inductive AuditEntry (P : Primitives) : AuditProg CallResult → Prop
  | record (raw : RawEvent) : AuditEntry P (Collector.record raw)
  | sealAndAppend (state : AppState) (eventType : EventType) (subjectId : String)
      (explicit : Option ExplicitTarget) (justification : Option String) (outcome : Outcome) :
      AuditEntry P (sealAndAppendAuditEvent P state eventType subjectId explicit
        justification outcome)

end ZeroSecret.Audit
