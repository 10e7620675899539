import ZeroSecret.Base.Fallible
import ZeroSecret.Base.History
import ZeroSecret.Base.Json

/-!
# `zs-hsm`: the pool of PKCS#11 sessions

`SessionPool` as programs over two kinds of steps: calls of the token, which
may answer anything, and accesses to the queue the idle sessions wait in, each
made under the mutex. A session is named by a number of its own: it is a value
that Rust moves, never two callers' at once, whatever handle the token gave it.
-/

namespace ZeroSecret.Hsm

open Interleave Fallible

inductive SigningMechanism where
  | ecdsaP256Sha256
deriving DecidableEq

inductive HsmError where
  | notInitialized
  | tokenAbsent
  | sessionLost
  | notLoggedIn
  | keyNotFound (label : String)
  | mechanismUnsupported (mechanism : SigningMechanism)
  | poolExhausted
  | deviceError
deriving DecidableEq

/-- A key is known by its label. -/
structure KeyRef where
  label : String

/-! ## What `cryptoki` answers -/

inductive RvError where
  | sessionHandleInvalid
  | sessionClosed
  | userNotLoggedIn
  | pinIncorrect
  | tokenNotPresent
  | deviceRemoved
  | mechanismInvalid
  | other (code : Nat)
deriving DecidableEq

inductive Error where
  | pkcs11 (rv : RvError)
  | other (description : String)
deriving DecidableEq

def mapError : Error → HsmError
  | .pkcs11 .sessionHandleInvalid => .sessionLost
  | .pkcs11 .sessionClosed => .sessionLost
  | .pkcs11 .userNotLoggedIn => .notLoggedIn
  | .pkcs11 .pinIncorrect => .notLoggedIn
  | .pkcs11 .tokenNotPresent => .tokenAbsent
  | .pkcs11 .deviceRemoved => .tokenAbsent
  | .pkcs11 .mechanismInvalid => .mechanismUnsupported .ecdsaP256Sha256
  | _ => .deviceError

abbrev Session : Type := Nat

abbrev ObjectHandle : Type := Nat

abbrev Slot : Type := Nat

inductive ObjectClass where
  | privateKey
  | publicKey
deriving DecidableEq

inductive Mechanism where
  | ecdsa
deriving DecidableEq

inductive MechanismType where
  | ecdsa
  | other (code : Nat)
deriving DecidableEq

inductive AttributeType where
  | ecPoint

inductive Attribute where
  | ecPoint (bytes : Bytes)
  | other

/-- `max_session_count` of the token. -/
inductive Limit where
  | max (count : Nat)
  | infinite
  | unavailable

def toCryptokiMechanism : SigningMechanism → Mechanism
  | .ecdsaP256Sha256 => .ecdsa

def toMechanismType : SigningMechanism → MechanismType
  | .ecdsaP256Sha256 => .ecdsa

/-! ## Steps -/

inductive PoolOp where
  | newContext (modulePath : String)
  | initializeContext
  | getSlotsWithInitializedToken
  | getTokenInfo (slot : Slot)
  | getMechanismList (slot : Slot)
  | openRwSession (slot : Slot)
  | login (session : Session) (pin : String)
  | closeSession (session : Session)
  | findObjects (session : Session) (objectClass : ObjectClass) (label : Bytes)
  | sign (session : Session) (mechanism : Mechanism) (key : ObjectHandle) (digest : Bytes)
  | getAttributes (session : Session) (object : ObjectHandle) (attributes : List AttributeType)
  | popFront
  | waitTimeout
  | pushBack (session : Session)

/-- A wait on the condition variable ended: whether by its time limit, and
whether the queue was empty then. -/
structure Wakeup where
  timedOut : Bool
  isEmpty : Bool

abbrev PoolResp : PoolOp → Type
  | .newContext _ => Except Error Unit
  | .initializeContext => Except Error Unit
  | .getSlotsWithInitializedToken => Except Error (List Slot)
  | .getTokenInfo _ => Except Error Limit
  | .getMechanismList _ => Except Error (List MechanismType)
  | .openRwSession _ => Except Error Session
  | .login _ _ => Except Error Unit
  | .closeSession _ => Unit
  | .findObjects _ _ _ => Except Error (List ObjectHandle)
  | .sign _ _ _ _ => Except Error Bytes
  | .getAttributes _ _ _ => Except Error (List Attribute)
  | .popFront => Option Session
  | .waitTimeout => Wakeup
  | .pushBack _ => Unit

abbrev PoolProg : Type → Type := Prog PoolOp PoolResp

def openRwSession (slot : Slot) : PoolProg (Except Error Session) :=
  .perform (PoolOp.openRwSession slot)

def login (session : Session) (pin : String) : PoolProg (Except Error Unit) :=
  .perform (PoolOp.login session pin)

/-- A `Session` that goes out of scope closes itself. -/
def closeSession (session : Session) : PoolProg Unit := .perform (PoolOp.closeSession session)

def findObjects (session : Session) (objectClass : ObjectClass) (label : Bytes) :
    PoolProg (Except Error (List ObjectHandle)) :=
  .perform (PoolOp.findObjects session objectClass label)

def sign (session : Session) (mechanism : Mechanism) (key : ObjectHandle) (digest : Bytes) :
    PoolProg (Except Error Bytes) :=
  .perform (PoolOp.sign session mechanism key digest)

def getAttributes (session : Session) (object : ObjectHandle) (attributes : List AttributeType) :
    PoolProg (Except Error (List Attribute)) :=
  .perform (PoolOp.getAttributes session object attributes)

def popFront : PoolProg (Option Session) := .perform PoolOp.popFront

def waitTimeout : PoolProg Wakeup := .perform PoolOp.waitTimeout

/-! ## The queue -/

/-- What an open pool is beside its queue. -/
structure SessionPool where
  slot : Slot
  pin : String

/-- The loop of `acquire`: the deadline is found to have passed at its turn
`turns`, counted from zero, unless it ends before. -/
def acquire : Nat → PoolProg (Except HsmError Session)
  | 0 => do
      match ← popFront with
      | some session => return .ok session
      | none => return .error .poolExhausted
  | turns + 1 => do
      match ← popFront with
      | some session => return .ok session
      | none =>
          let wakeup ← waitTimeout
          if wakeup.timedOut && wakeup.isEmpty then return .error .poolExhausted
          else acquire turns

def release (session : Session) : PoolProg Unit := .perform (PoolOp.pushBack session)

def evictAndReplenish (pool : SessionPool) : PoolProg Unit := do
  match ← openRwSession pool.slot with
  | .error _ => return ()
  | .ok session =>
      match ← login session pool.pin with
      | .error _ => closeSession session
      | .ok _ => release session

/-- Three errors leave the session in an uncertain state. -/
def handleOperationFailure (pool : SessionPool) (session : Session) (error : HsmError) :
    PoolProg Unit :=
  match error with
  | .sessionLost | .notLoggedIn | .tokenAbsent => do
      closeSession session
      evictAndReplenish pool
  | _ => release session

/-! ## Keys -/

/-- Exactly one object has the class and the label. -/
def findKey (session : Session) (key : KeyRef) (objectClass : ObjectClass) :
    PoolProg (Except HsmError ObjectHandle) := do
  match ← findObjects session objectClass (Json.octetsOf key.label) with
  | .error err => return .error (mapError err)
  | .ok [single] => return .ok single
  | .ok _ => return .error (.keyNotFound key.label)

/-- `length = (length << 8) | b` over the length bytes. -/
def beLength (bytes : Bytes) : Nat :=
  bytes.foldl (fun length b => (length <<< 8) ||| b.toNat) 0

/-- Where the content of the OCTET STRING starts, and its length. -/
def octetStringHeader (der : Bytes) (first : UInt8) : Except HsmError (Nat × Nat) :=
  if first &&& 0x80 = 0 then .ok (2, first.toNat)
  else
    let lengthBytes := (first &&& 0x7F).toNat
    if lengthBytes = 0 ∨ lengthBytes > 4 ∨ der.length < 2 + lengthBytes then .error .deviceError
    else .ok (2 + lengthBytes, beLength ((der.drop 2).take lengthBytes))

/-- The point inside the OCTET STRING of `CKA_EC_POINT`. -/
def decodeEcPoint (der : Bytes) : Except HsmError Bytes :=
  match der with
  | tag :: first :: _ =>
      if tag = 0x04 then do
        let (contentStart, length) ← octetStringHeader der first
        if contentStart + length ≤ der.length then .ok ((der.drop contentStart).take length)
        else .error .deviceError
      else .error .deviceError
  | _ => .error .deviceError

def Attribute.ecPoint? : Attribute → Option Bytes
  | .ecPoint bytes => some bytes
  | .other => none

/-! ## `HsmSigner` -/

abbrev Signature : Type := Bytes

abbrev PublicKeyDer : Type := Bytes

/-- The `?` after the search drops the session. -/
def SessionPool.signDigest (pool : SessionPool) (turns : Nat) (key : KeyRef)
    (mechanism : SigningMechanism) (digest : Bytes) : PoolProg (Except HsmError Signature) := do
  match ← acquire turns with
  | .error e => return .error e
  | .ok session =>
      match ← findKey session key .privateKey with
      | .error e => do
          closeSession session
          return .error e
      | .ok handle =>
          match ← sign session (toCryptokiMechanism mechanism) handle digest with
          | .ok raw => do
              release session
              return .ok raw
          | .error err => do
              handleOperationFailure pool session (mapError err)
              return .error (mapError err)

def SessionPool.publicKey (pool : SessionPool) (turns : Nat) (key : KeyRef) :
    PoolProg (Except HsmError PublicKeyDer) := do
  match ← acquire turns with
  | .error e => return .error e
  | .ok session =>
      match ← findKey session key .publicKey with
      | .error e => do
          release session
          return .error e
      | .ok handle =>
          match ← getAttributes session handle [.ecPoint] with
          | .ok values => do
              release session
              return (okOr (.keyNotFound key.label) (values.findSome? Attribute.ecPoint?)).bind
                decodeEcPoint
          | .error err => do
              handleOperationFailure pool session (mapError err)
              return .error (mapError err)

/-- A call of the trait. -/
inductive PoolCall where
  | signDigest (key : KeyRef) (mechanism : SigningMechanism) (digest : Bytes)
  | publicKey (key : KeyRef)

def PoolCall.prog (pool : SessionPool) (turns : Nat) :
    PoolCall → PoolProg (Except HsmError Bytes)
  | .signDigest key mechanism digest => pool.signDigest turns key mechanism digest
  | .publicKey key => pool.publicKey turns key

/-! ## Opening -/

structure HsmConfig where
  modulePath : String
  slotId : Option Nat
  pin : String
  poolSize : Nat

/-- Rust's `?`, after `map_err`. -/
def orReturn {ε α β : Type} (f : ε → HsmError) (p : PoolProg (Except ε α))
    (k : α → PoolProg (Except HsmError β)) : PoolProg (Except HsmError β) := do
  match ← p with
  | .error e => return .error (f e)
  | .ok a => k a

def resolveSlot (requested : Option Nat) : PoolProg (Except HsmError Slot) :=
  orReturn mapError (.perform PoolOp.getSlotsWithInitializedToken) fun slots =>
    match requested with
    | some id => return okOr .tokenAbsent (slots.find? (· == id))
    | none => return okOr .tokenAbsent slots.head?

def ensureMechanismSupported (slot : Slot) (mechanism : SigningMechanism) :
    PoolProg (Except HsmError Unit) :=
  orReturn mapError (.perform (PoolOp.getMechanismList slot)) fun offered =>
    return require (offered.contains (toMechanismType mechanism)) (.mechanismUnsupported mechanism)

/-- More sessions than the token allows. -/
def Limit.exceededBy : Limit → Nat → Bool
  | .max count, poolSize => poolSize > count
  | _, _ => false

def closeSessions : List Session → PoolProg Unit
  | [] => return ()
  | session :: sessions => do
      closeSession session
      closeSessions sessions

/-- The loop of `open`; a failure closes what it had opened. -/
def openSessions (slot : Slot) (pin : String) :
    Nat → List Session → PoolProg (Except HsmError (List Session))
  | 0, sessions => return .ok sessions
  | n + 1, sessions => do
      match ← openRwSession slot with
      | .error err => do
          closeSessions sessions
          return .error (mapError err)
      | .ok session =>
          match ← login session pin with
          | .error err => do
              closeSession session
              closeSessions sessions
              return .error (mapError err)
          | .ok _ => openSessions slot pin n (sessions ++ [session])

/-- The pool and the sessions its queue starts with. -/
def SessionPool.openPool (config : HsmConfig) :
    PoolProg (Except HsmError (SessionPool × List Session)) :=
  orReturn (fun _ => .notInitialized) (.perform (PoolOp.newContext config.modulePath)) fun _ =>
  orReturn (fun _ => .notInitialized) (.perform PoolOp.initializeContext) fun _ =>
  orReturn id (resolveSlot config.slotId) fun slot =>
  orReturn mapError (.perform (PoolOp.getTokenInfo slot)) fun limit =>
    if limit.exceededBy config.poolSize then return .error .deviceError
    else
      orReturn id (ensureMechanismSupported slot .ecdsaP256Sha256) fun _ =>
      orReturn id (openSessions slot config.pin config.poolSize []) fun sessions =>
        return .ok (⟨slot, config.pin⟩, sessions)

theorem orReturn_returns {ε α β : Type} {f : ε → HsmError} {p : PoolProg (Except ε α)}
    {k : α → PoolProg (Except HsmError β)} {P : β → Prop}
    (hk : ∀ a, (k a).Returns (OkOnly P)) : (orReturn f p k).Returns (OkOnly P) := by
  refine Prog.returns_bind (fun r => ?_) p
  cases r with
  | error e => exact okOnly_error _
  | ok a => exact hk a

theorem openSessions_returns (slot : Slot) (pin : String) (n : Nat) (sessions : List Session) :
    (openSessions slot pin n sessions).Returns
      (OkOnly fun opened => opened.length = sessions.length + n) := by
  induction n generalizing sessions with
  | zero => exact okOnly_ok rfl
  | succ n ih =>
      refine Prog.returns_bind (fun r => ?_) (openRwSession slot)
      cases r with
      | error err =>
          refine Prog.returns_bind (fun _ => ?_) (closeSessions sessions)
          exact okOnly_error _
      | ok session =>
          refine Prog.returns_bind (fun r => ?_) (login session pin)
          cases r with
          | error err =>
              refine Prog.returns_bind (fun _ => ?_) (closeSession session)
              refine Prog.returns_bind (fun _ => ?_) (closeSessions sessions)
              exact okOnly_error _
          | ok _ =>
              have hnext := ih (sessions ++ [session])
              rwa [List.length_append, List.length_singleton, Nat.add_assoc,
                Nat.add_comm 1 n] at hnext

/-- **A pool opens with as many sessions as it was configured for.** -/
theorem openPool_returns (config : HsmConfig) :
    (SessionPool.openPool config).Returns
      (OkOnly fun opened => opened.2.length = config.poolSize) := by
  refine orReturn_returns fun _ => orReturn_returns fun _ => orReturn_returns fun slot =>
    orReturn_returns fun limit => ?_
  split
  · exact okOnly_error _
  · refine orReturn_returns fun _ => ?_
    refine Prog.ensures_bind (openSessions_returns slot config.pin config.poolSize []) ?_
    intro r hr
    cases r with
    | error e => exact okOnly_error _
    | ok sessions =>
        refine okOnly_ok ?_
        have hlen := hr sessions rfl
        simpa using hlen

/-! ## The world -/

/-- The queue, front first, and the name of the next session to be opened. -/
structure PoolState where
  sessions : List Session
  next : Session
deriving DecidableEq

/-- The token answers anything; a session it opens is a new one. A caller that
waits for a session is one that is not picked. -/
def poolWorld (Caller : Type) (n : Nat) : World Caller PoolOp PoolResp where
  State := PoolState
  init := ⟨List.range n, n⟩
  exec _ op s r u :=
    match op, r with
    | .openRwSession _, .ok session => session = s.next ∧ u = { s with next := s.next + 1 }
    | .popFront, r => r = s.sessions.head? ∧ u = { s with sessions := s.sessions.tail }
    | .waitTimeout, r => r.isEmpty = s.sessions.isEmpty ∧ u = s
    | .pushBack session, _ => u = { s with sessions := s.sessions ++ [session] }
    | _, _ => u = s

section Opening

variable {Caller : Type} {i : Caller} {m : Nat} {s u : PoolState}

theorem runs_orReturn {ε α β : Type} {f : ε → HsmError} {p : PoolProg (Except ε α)}
    {k : α → PoolProg (Except HsmError β)} {b : β}
    (h : Runs (poolWorld Caller m) i (orReturn f p k) s (.ret (.ok b)) u) :
    ∃ a t, Runs (poolWorld Caller m) i p s (.ret (.ok a)) t ∧
      Runs (poolWorld Caller m) i (k a) t (.ret (.ok b)) u := by
  obtain ⟨r, t, hfirst, hlater⟩ := Runs.of_bind h
  cases r with
  | error e => cases (Runs.of_ret hlater).1
  | ok a => exact ⟨a, t, hfirst, hlater⟩

/-- An operation that leaves the queue as it is. -/
theorem runs_perform {op : PoolOp} {r : PoolResp op}
    (h : Runs (poolWorld Caller m) i (.perform op) s (.ret r) u)
    (hop : ∀ r t, (poolWorld Caller m).exec i op s r t → t = s) : u = s := by
  obtain ⟨r', t, hx, hret⟩ := Runs.of_call h
  rw [(Runs.of_ret hret).2, hop r' t hx]

/-- So is a question that leaves the queue as it is, whatever is made of the
answer. -/
theorem runs_asked {ε α β : Type} {f : ε → HsmError} {p : PoolProg (Except ε α)}
    {k : α → Except HsmError β} {b : β}
    (h : Runs (poolWorld Caller m) i (orReturn f p fun a => .ret (k a)) s (.ret (.ok b)) u)
    (hp : ∀ a t, Runs (poolWorld Caller m) i p s (.ret (.ok a)) t → t = s) : u = s := by
  obtain ⟨a, t, hasked, hanswered⟩ := runs_orReturn h
  rw [(Runs.of_ret hanswered).2, hp a t hasked]

theorem runs_resolveSlot {requested : Option Nat} {slot : Slot}
    (h : Runs (poolWorld Caller m) i (resolveSlot requested) s (.ret (.ok slot)) u) : u = s := by
  cases requested with
  | none => exact runs_asked h fun _ _ hslots => runs_perform hslots fun _ _ hx => hx
  | some id => exact runs_asked h fun _ _ hslots => runs_perform hslots fun _ _ hx => hx

theorem runs_ensureMechanismSupported {slot : Slot} {mechanism : SigningMechanism} {a : Unit}
    (h : Runs (poolWorld Caller m) i (ensureMechanismSupported slot mechanism) s (.ret (.ok a)) u) :
    u = s :=
  runs_asked h fun _ _ hoffered => runs_perform hoffered fun _ _ hx => hx

/-- The sessions are opened one after another, each a new one. -/
theorem runs_openSessions {slot : Slot} {pin : String} {n : Nat} {sessions opened : List Session}
    (h : Runs (poolWorld Caller m) i (openSessions slot pin n sessions) s (.ret (.ok opened)) u)
    (hsessions : sessions = List.range s.next) : opened = List.range u.next := by
  induction n generalizing sessions s with
  | zero =>
      obtain ⟨heq, hu⟩ := Runs.of_ret h
      rw [← Except.ok.inj heq, hsessions, hu]
  | succ n ih =>
      obtain ⟨session, t, hopen, hnext⟩ := Runs.of_bind h
      obtain ⟨r, t', hx, hret⟩ := Runs.of_call hopen
      obtain ⟨rfl, rfl⟩ := Runs.of_ret hret
      cases r with
      | error err =>
          obtain ⟨_, t', -, hrefused⟩ := Runs.of_bind hnext
          cases (Runs.of_ret hrefused).1
      | ok session =>
          obtain ⟨rfl, ht⟩ : session = s.next ∧ t = { s with next := s.next + 1 } := hx
          obtain ⟨logged, v, hlogin, hlater⟩ := Runs.of_bind hnext
          have hv : v = t := runs_perform hlogin fun _ _ hx => hx
          cases logged with
          | error err =>
              obtain ⟨_, v', -, hclosed⟩ := Runs.of_bind hlater
              obtain ⟨_, w, -, hrefused⟩ := Runs.of_bind hclosed
              cases (Runs.of_ret hrefused).1
          | ok a =>
              refine ih hlater ?_
              rw [hsessions, hv, ht, List.range_succ]

/-- **The world of a pool is the pool as it is opened**: the queue holds the
sessions that were opened, as many as were configured, and the next name is
new. -/
theorem init_of_openPool {config : HsmConfig} {pool : SessionPool} {sessions : List Session}
    (h : Runs (poolWorld Caller 0) i (SessionPool.openPool config) (poolWorld Caller 0).init
      (.ret (.ok (pool, sessions))) u) :
    (poolWorld Caller config.poolSize).init = ⟨sessions, u.next⟩ := by
  have hlength : sessions.length = config.poolSize :=
    (openPool_returns config).of_runs h rfl (pool, sessions) rfl
  obtain ⟨_, t₁, hcontext, h₁⟩ := runs_orReturn h
  obtain ⟨_, t₂, hinitialized, h₂⟩ := runs_orReturn h₁
  obtain ⟨slot, t₃, hslot, h₃⟩ := runs_orReturn h₂
  obtain ⟨limit, t₄, hinfo, h₄⟩ := runs_orReturn h₃
  have h₁₀ : t₁ = (poolWorld Caller 0).init := runs_perform hcontext fun _ _ hx => hx
  have h₂₁ : t₂ = t₁ := runs_perform hinitialized fun _ _ hx => hx
  have h₄₃ : t₄ = t₃ := runs_perform hinfo fun _ _ hx => hx
  split at h₄
  · cases (Runs.of_ret h₄).1
  · obtain ⟨_, t₅, hmechanism, h₅⟩ := runs_orReturn h₄
    obtain ⟨opened, t₆, hopened, h₆⟩ := runs_orReturn h₅
    obtain ⟨heq, rfl⟩ := Runs.of_ret h₆
    obtain ⟨-, rfl⟩ := Prod.mk.inj (Except.ok.inj heq)
    have hsessions : opened = List.range u.next := by
      refine runs_openSessions hopened ?_
      rw [runs_ensureMechanismSupported hmechanism, h₄₃, runs_resolveSlot hslot, h₂₁, h₁₀]
      rfl
    rw [hsessions, List.length_range] at hlength
    rw [hsessions, hlength]
    rfl

end Opening

/-- Any caller, any call, any time to wait. -/
def Calls (Caller : Type) (pool : SessionPool) (_ : Caller)
    (p : PoolProg (Except HsmError Bytes)) : Prop :=
  ∃ (turns : Nat) (call : PoolCall), p = call.prog pool turns

end ZeroSecret.Hsm
