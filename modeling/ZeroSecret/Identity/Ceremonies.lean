import ZeroSecret.Base.KeyedTable
import ZeroSecret.Identity.Paths

/-!
# Challenges and counters under concurrency

Any number of calls interleave, each a sequence of separate statements that
may fail. What a step can do to a table is said once per table; the
invariants follow from that, whoever the step belongs to.

* a challenge is consumed at most once, before it expires, by a verify call of
  its own kind;
* the counter updates of a credential are strictly increasing.
-/

namespace ZeroSecret.Identity

open Crypto Crypto.AuthenticatorProof Webauthn Interleave

variable {Caller : Type}

/-! ## What a step can do -/

section Steps

variable {P : Primitives} {sealer : AuditSeal.AuditSealer} {i : Caller} {op : IdentityOp}
  {s s' : IdentityDb Caller} {r : op.Resp}

/-- A statement that failed moved the clock and nothing else. -/
theorem statement_cases {ρ : Type} {f : IdentityDb Caller → Option (ρ × IdentityDb Caller)}
    {r : Except String ρ} (h : Statement f s r s') :
    (∃ now, s' = { s with clock := now }) ∨
    ∃ now a, f { s with clock := now } = some (a, s') := by
  obtain ⟨now, -, ⟨e, -, rfl⟩ | ⟨a, hf, -⟩⟩ := h
  · exact Or.inl ⟨now, rfl⟩
  · exact Or.inr ⟨now, a, hf⟩

/-- A statement that was answered has committed with that answer. -/
theorem statement_ok {ρ : Type} {f : IdentityDb Caller → Option (ρ × IdentityDb Caller)} {a : ρ}
    (h : Statement f s (.ok a) s') : ∃ now, f { s with clock := now } = some (a, s') := by
  obtain ⟨now, -, ⟨e, he, -⟩ | ⟨b, hf, hr⟩⟩ := h
  · cases he
  · rcases hr with hr | ⟨e, hr⟩
    · rw [Except.ok.inj hr]
      exact ⟨now, hf⟩
    · cases hr

/-- A step of call `i`: time passes, or one table changes. -/
inductive Effect (P : Primitives) (sealer : AuditSeal.AuditSealer) (i : Caller)
    (s : IdentityDb Caller) : IdentityOp → IdentityDb Caller → Prop
  | wait (op : IdentityOp) (now : Int) : Effect P sealer i s op { s with clock := now }
  | issue (challenge : Bytes) (subjectId kind : String) (ttlSeconds now : Int)
      (hfresh : ∀ row ∈ s.challenges, row.challenge ≠ challenge) :
      Effect P sealer i s (.insertChallenge challenge subjectId kind ttlSeconds)
        { s with
          clock := now
          challenges := s.challenges ++
            [⟨challenge, subjectId, kind, now + ttlSeconds * 1000000, none, []⟩] }
  | consume (challenge : Bytes) (kind : String) (now : Int) :
      Effect P sealer i s (.consumeChallenge challenge kind)
        { s with
          clock := now
          challenges := s.challenges.map fun row =>
            if row.consumable challenge kind now then row.consume i now else row }
  | register (columns : AuthenticatorColumns) (now : Int)
      (hfresh : ∀ row ∈ s.authenticators, row.credentialId ≠ columns.credentialId) :
      Effect P sealer i s (.insertAuthenticator columns)
        { s with clock := now, authenticators := s.authenticators ++ [⟨columns, i, []⟩] }
  | advance (credentialId : Bytes) (received : UInt32) (now : Int) :
      Effect P sealer i s (.advanceSignCount credentialId received)
        { s with
          clock := now
          authenticators := s.authenticators.map fun row =>
            if row.advanceable credentialId received then row.advance i received else row }
  | audit (op : Audit.AuditOp) (r : op.Resp) (events : Audit.Table Caller)
      (hx : Audit.auditExec P sealer i op s.events r events) :
      Effect P sealer i s (.audit op) { s with events := events }

/-- **Every step has one of these effects.** -/
theorem exec_effect (h : identityExec P sealer i op s r s') : Effect P sealer i s op s' := by
  cases op with
  | newChallenge =>
      obtain rfl : s' = s := h
      exact .wait _ s'.clock
  | insertChallenge challenge subjectId kind ttl =>
      rcases statement_cases h with ⟨now, rfl⟩ | ⟨now, a, hf⟩
      · exact .wait _ now
      · unfold insertChallengeStmt at hf
        split at hf
        · rename_i hfresh
          obtain ⟨-, rfl⟩ := Prod.mk.inj (Option.some.inj hf)
          exact .issue challenge subjectId kind ttl now hfresh.1
        · cases hf
  | consumeChallenge challenge kind =>
      rcases statement_cases h with ⟨now, rfl⟩ | ⟨now, a, hf⟩
      · exact .wait _ now
      · obtain ⟨-, rfl⟩ := Prod.mk.inj (Option.some.inj hf)
        exact .consume challenge kind now
  | insertAuthenticator columns =>
      rcases statement_cases h with ⟨now, rfl⟩ | ⟨now, a, hf⟩
      · exact .wait _ now
      · unfold insertAuthenticatorStmt at hf
        split at hf
        · rename_i hfresh
          obtain ⟨-, rfl⟩ := Prod.mk.inj (Option.some.inj hf)
          exact .register columns now hfresh.1
        · cases hf
  | selectAuthenticator credentialId =>
      rcases statement_cases h with ⟨now, rfl⟩ | ⟨now, a, hf⟩
      · exact .wait _ now
      · obtain ⟨-, rfl⟩ := Prod.mk.inj (Option.some.inj hf)
        exact .wait _ now
  | selectCredentialIds subjectId =>
      rcases statement_cases h with ⟨now, rfl⟩ | ⟨now, a, hf⟩
      · exact .wait _ now
      · obtain ⟨-, rfl⟩ := Prod.mk.inj (Option.some.inj hf)
        exact .wait _ now
  | advanceSignCount credentialId received =>
      rcases statement_cases h with ⟨now, rfl⟩ | ⟨now, a, hf⟩
      · exact .wait _ now
      · obtain ⟨-, rfl⟩ := Prod.mk.inj (Option.some.inj hf)
        exact .advance credentialId received now
  | sealAssertion local_ claims =>
      obtain ⟨rfl, -⟩ := h
      exact .wait _ s'.clock
  | audit op =>
      obtain ⟨events, hx, rfl⟩ := h
      exact .audit op r events hx

end Steps

/-! ## Challenges -/

/-- One row: unused rows have not been consumed, and a consumption was in
time. -/
structure ChallengeRow.Ok (row : ChallengeRow Caller) : Prop where
  unused : row.usedAt = none → row.consumptions = []
  once : row.consumptions.length ≤ 1
  inTime : ∀ x ∈ row.consumptions, x.at_ < row.expiresAt

theorem ChallengeRow.ok_consume {row : ChallengeRow Caller} {i : Caller} {challenge : Bytes}
    {kind : String} {now : Int} (hrow : row.Ok)
    (hc : row.consumable challenge kind now = true) : (row.consume i now).Ok := by
  simp only [ChallengeRow.consumable, Bool.and_eq_true, beq_iff_eq, Option.isNone_iff_eq_none,
    decide_eq_true_eq] at hc
  have hnil := hrow.unused hc.1.2
  constructor
  · intro hnone
    cases hnone
  · simp [ChallengeRow.consume, hnil]
  · intro x hx
    have hx' : x = ⟨i, now⟩ := by simpa [ChallengeRow.consume, hnil] using hx
    rw [hx']
    exact hc.2

def ChallengesOk (s : IdentityDb Caller) : Prop :=
  KeyedTable ChallengeRow.challenge ChallengeRow.Ok s.challenges

theorem challengesOk_effect {P : Primitives} {sealer : AuditSeal.AuditSealer} {i : Caller}
    {op : IdentityOp} {s s' : IdentityDb Caller} (hs : ChallengesOk s)
    (h : Effect P sealer i s op s') : ChallengesOk s' := by
  cases h with
  | wait now => exact hs
  | issue challenge subjectId kind ttl now hfresh =>
      exact hs.insert hfresh ⟨fun _ => rfl, Nat.zero_le 1, fun x hx => (by cases hx)⟩
  | consume challenge kind now =>
      exact hs.update (fun _ => rfl) fun row hrow hc => ChallengeRow.ok_consume hrow hc
  | register columns now hfresh => exact hs
  | advance credentialId received now => exact hs
  | audit op r events hx => exact hs

/-! ## Counters -/

/-- One row: the committed updates went up, to the counter stored. -/
structure StoredAuthenticator.Ok (row : StoredAuthenticator Caller) : Prop where
  increasing : row.advances.Pairwise fun x y => x.signCount < y.signCount
  bounded : ∀ x ∈ row.advances, (x.signCount.toNat : Int) ≤ row.signCount

theorem StoredAuthenticator.ok_advance {row : StoredAuthenticator Caller} {i : Caller}
    {credentialId : Bytes} {received : UInt32} (hrow : row.Ok)
    (ha : row.advanceable credentialId received = true) : (row.advance i received).Ok := by
  simp only [StoredAuthenticator.advanceable, Bool.and_eq_true, beq_iff_eq,
    decide_eq_true_eq] at ha
  have hlt : ∀ x ∈ row.advances, x.signCount < received := by
    intro x hx
    have hle := hrow.bounded x hx
    rw [UInt32.lt_iff_toNat_lt]
    omega
  constructor
  · refine List.pairwise_append.mpr ⟨hrow.increasing, List.pairwise_singleton _ _, ?_⟩
    intro x hx y hy
    rw [List.mem_singleton.mp hy]
    exact hlt x hx
  · intro x hx
    rcases List.mem_append.mp hx with hx | hx
    · have hle := hrow.bounded x hx
      change (x.signCount.toNat : Int) ≤ received.toNat
      omega
    · rw [List.mem_singleton.mp hx]
      exact le_refl _

def AuthenticatorsOk (s : IdentityDb Caller) : Prop :=
  KeyedTable (fun row => row.credentialId) StoredAuthenticator.Ok s.authenticators

theorem authenticatorsOk_effect {P : Primitives} {sealer : AuditSeal.AuditSealer} {i : Caller}
    {op : IdentityOp} {s s' : IdentityDb Caller} (hs : AuthenticatorsOk s)
    (h : Effect P sealer i s op s') : AuthenticatorsOk s' := by
  cases h with
  | wait now => exact hs
  | issue challenge subjectId kind ttl now hfresh => exact hs
  | consume challenge kind now => exact hs
  | register columns now hfresh =>
      exact hs.insert hfresh ⟨List.Pairwise.nil, fun x hx => (by cases hx)⟩
  | advance credentialId received now =>
      exact hs.update (fun _ => rfl) fun row hrow ha => StoredAuthenticator.ok_advance hrow ha
  | audit op r events hx => exact hs

/-! ## Rows stay -/

/-- What a challenge row keeps: all but `used_at`, which only gains
consumptions. -/
structure ChallengeRow.Continues (row row' : ChallengeRow Caller) : Prop where
  challenge : row'.challenge = row.challenge
  subjectId : row'.subjectId = row.subjectId
  ceremonyKind : row'.ceremonyKind = row.ceremonyKind
  expiresAt : row'.expiresAt = row.expiresAt
  consumptions : row.consumptions ⊆ row'.consumptions

/-- What an authenticator keeps: all but its counter. -/
structure StoredAuthenticator.Continues (row row' : StoredAuthenticator Caller) : Prop where
  columns : row'.toAuthenticatorColumns =
    { row.toAuthenticatorColumns with signCount := row'.signCount }
  owner : row'.owner = row.owner
  advances : row.advances ⊆ row'.advances

section Persistence

variable {P : Primitives} {sealer : AuditSeal.AuditSealer} {i : Caller} {op : IdentityOp}
  {s s' : IdentityDb Caller}

theorem challenge_continues (h : Effect P sealer i s op s') {row : ChallengeRow Caller}
    (hrow : row ∈ s.challenges) : ∃ row' ∈ s'.challenges, row.Continues row' := by
  have hself : row.Continues row := ⟨rfl, rfl, rfl, rfl, List.Subset.refl _⟩
  cases h with
  | wait now => exact ⟨row, hrow, hself⟩
  | issue challenge subjectId kind ttl now hfresh =>
      exact ⟨row, List.mem_append_left _ hrow, hself⟩
  | consume challenge kind now =>
      refine ⟨_, List.mem_map.mpr ⟨row, hrow, rfl⟩, ?_⟩
      split
      · exact ⟨rfl, rfl, rfl, rfl, List.subset_append_left _ _⟩
      · exact hself
  | register columns now hfresh => exact ⟨row, hrow, hself⟩
  | advance credentialId received now => exact ⟨row, hrow, hself⟩
  | audit op r events hx => exact ⟨row, hrow, hself⟩

theorem authenticator_continues (h : Effect P sealer i s op s') {row : StoredAuthenticator Caller}
    (hrow : row ∈ s.authenticators) : ∃ row' ∈ s'.authenticators, row.Continues row' := by
  have hself : row.Continues row := ⟨rfl, rfl, List.Subset.refl _⟩
  cases h with
  | wait now => exact ⟨row, hrow, hself⟩
  | issue challenge subjectId kind ttl now hfresh => exact ⟨row, hrow, hself⟩
  | consume challenge kind now => exact ⟨row, hrow, hself⟩
  | register columns now hfresh => exact ⟨row, List.mem_append_left _ hrow, hself⟩
  | advance credentialId received now =>
      refine ⟨_, List.mem_map.mpr ⟨row, hrow, rfl⟩, ?_⟩
      split
      · exact ⟨rfl, rfl, List.subset_append_left _ _⟩
      · exact hself
  | audit op r events hx => exact ⟨row, hrow, hself⟩

/-! ### What an answer means -/

/-- Call `i` has consumed the challenge, as this kind. -/
def ConsumedBy (i : Caller) (challenge : Bytes) (kind : String) (s : IdentityDb Caller) : Prop :=
  ∃ row ∈ s.challenges, row.challenge = challenge ∧ row.ceremonyKind = kind ∧
    ∃ x ∈ row.consumptions, x.caller = i

theorem consumedBy_effect {j : Caller} {challenge : Bytes} {kind : String}
    (hc : ConsumedBy j challenge kind s) (h : Effect P sealer i s op s') :
    ConsumedBy j challenge kind s' := by
  obtain ⟨row, hrow, hch, hkind, x, hx, hcaller⟩ := hc
  obtain ⟨row', hrow', hcont⟩ := challenge_continues h hrow
  exact ⟨row', hrow', hcont.challenge.trans hch, hcont.ceremonyKind.trans hkind, x,
    hcont.consumptions hx, hcaller⟩

/-- A returned subject is a committed consumption. -/
theorem consumedBy_of_exec {challenge : Bytes} {kind subjectId : String}
    (h : identityExec P sealer i (.consumeChallenge challenge kind) s (.ok (some subjectId)) s') :
    ConsumedBy i challenge kind s' := by
  obtain ⟨now, hf⟩ := statement_ok h
  obtain ⟨hfind, rfl⟩ := Prod.mk.inj (Option.some.inj hf)
  obtain ⟨row, hrow, -⟩ := Option.map_eq_some_iff.mp hfind
  have hc : row.consumable challenge kind now = true := List.find?_some hrow
  have hkeys := hc
  simp only [ChallengeRow.consumable, Bool.and_eq_true, beq_iff_eq] at hkeys
  refine ⟨row.consume i now, ?_, hkeys.1.1.1, hkeys.1.1.2, ⟨i, now⟩, ?_, rfl⟩
  · exact List.mem_map.mpr ⟨row, List.mem_of_find?_eq_some hrow, if_pos hc⟩
  · exact List.mem_append_right _ (List.mem_singleton_self _)

/-- Call `i` has moved the counter of the credential to this count. -/
def AdvancedBy (i : Caller) (credentialId : Bytes) (signCount : UInt32)
    (s : IdentityDb Caller) : Prop :=
  ∃ row ∈ s.authenticators, row.credentialId = credentialId ∧ ⟨i, signCount⟩ ∈ row.advances

theorem advancedBy_effect {j : Caller} {credentialId : Bytes} {signCount : UInt32}
    (ha : AdvancedBy j credentialId signCount s) (h : Effect P sealer i s op s') :
    AdvancedBy j credentialId signCount s' := by
  obtain ⟨row, hrow, hid, hx⟩ := ha
  obtain ⟨row', hrow', hcont⟩ := authenticator_continues h hrow
  have hid' : row'.credentialId = row.credentialId := by
    rw [hcont.columns]
  exact ⟨row', hrow', hid'.trans hid, hcont.advances hx⟩

/-- One affected row is a committed update. -/
theorem advancedBy_of_exec {credentialId : Bytes} {received : UInt32}
    (h : identityExec P sealer i (.advanceSignCount credentialId received) s (.ok 1) s') :
    AdvancedBy i credentialId received s' := by
  obtain ⟨now, hf⟩ := statement_ok h
  obtain ⟨hcount, rfl⟩ := Prod.mk.inj (Option.some.inj hf)
  have hpos : 0 < s.authenticators.countP
      (StoredAuthenticator.advanceable credentialId received) := by
    rw [show s.authenticators.countP _ = 1 from hcount]
    exact Nat.one_pos
  obtain ⟨row, hrow, ha⟩ := List.countP_pos_iff.mp hpos
  have hkeys := ha
  simp only [StoredAuthenticator.advanceable, Bool.and_eq_true, beq_iff_eq] at hkeys
  refine ⟨row.advance i received, ?_, hkeys.1, ?_⟩
  · exact List.mem_map.mpr ⟨row, hrow, if_pos ha⟩
  · exact List.mem_append_right _ (List.mem_singleton_self _)

/-- The row a `SELECT` by identifier gave has that identifier. -/
theorem credentialId_of_exec {i : Caller} {credentialId : Bytes} {columns : AuthenticatorColumns}
    {s s' : IdentityDb Caller}
    (hx : identityExec P sealer i (.selectAuthenticator credentialId) s (.ok (some columns)) s') :
    columns.credentialId = credentialId := by
  obtain ⟨now, hf⟩ := statement_ok hx
  obtain ⟨hfind, -⟩ := Prod.mk.inj (Option.some.inj hf)
  obtain ⟨row, hrow, rfl⟩ := Option.map_eq_some_iff.mp hfind
  have hfound := List.find?_some hrow
  exact eq_of_beq hfound

end Persistence

/-! ## Runs -/

section Runs

variable {P : Primitives} {sealer : AuditSeal.AuditSealer} {start : Int}
  {h : List (Executed Caller IdentityOp.Resp)} {s : IdentityDb Caller}

/-- What holds of empty tables and is kept by every effect holds throughout. -/
theorem execution_invariant {I : IdentityDb Caller → Prop} (hinit : I ⟨start, [], [], []⟩)
    (hstep : ∀ {i op t u}, I t → Effect P sealer i t op u → I u)
    (hh : Execution (identityWorld Caller P sealer start) h s) : I s :=
  hh.invariant (I := fun _ => I) hinit fun _ ht hx => hstep ht (exec_effect hx)

/-- What an act establishes and every effect keeps holds at the end. -/
theorem execution_of_mem {A : IdentityDb Caller → Prop}
    (hkeep : ∀ {i op t u}, A t → Effect P sealer i t op u → A u)
    {e : Executed Caller IdentityOp.Resp} (he : e ∈ h)
    (hest : ∀ {t u}, identityExec P sealer e.caller e.op t e.answer u → A u)
    (hh : Execution (identityWorld Caller P sealer start) h s) : A s :=
  hh.of_mem (A := A) (fun hA hx => hkeep hA (exec_effect hx)) he fun hx => hest hx

theorem challengesOk_execution (hh : Execution (identityWorld Caller P sealer start) h s) :
    ChallengesOk s :=
  execution_invariant (KeyedTable.empty _ _) challengesOk_effect hh

theorem authenticatorsOk_execution (hh : Execution (identityWorld Caller P sealer start) h s) :
    AuthenticatorsOk s :=
  execution_invariant (KeyedTable.empty _ _) authenticatorsOk_effect hh

/-- Every committed consumption is a statement its caller executed. -/
def ConsumptionsExecuted (h : List (Executed Caller IdentityOp.Resp)) (s : IdentityDb Caller) :
    Prop :=
  ∀ row ∈ s.challenges, ∀ x ∈ row.consumptions, ∃ r,
    (⟨⟨.consumeChallenge row.challenge row.ceremonyKind, r⟩, x.caller⟩ :
      Executed Caller IdentityOp.Resp) ∈ h

theorem consumptionsExecuted_snoc {s' : IdentityDb Caller} (e : Executed Caller IdentityOp.Resp)
    (hs : ConsumptionsExecuted h s) (he : Effect P sealer e.caller s e.op s') :
    ConsumptionsExecuted (h ++ [e]) s' := by
  -- what was there before the step is in the older part
  have hold : ConsumptionsExecuted (h ++ [e]) s := by
    intro row hrow x hx
    obtain ⟨r, hr⟩ := hs row hrow x hx
    exact ⟨r, List.mem_append_left _ hr⟩
  obtain ⟨⟨op, answer⟩, i⟩ := e
  intro row hrow x hx
  cases he with
  | wait now => exact hold row hrow x hx
  | issue challenge subjectId kind ttl now hfresh =>
      rcases List.mem_append.mp hrow with hrow | hrow
      · exact hold row hrow x hx
      · rw [List.mem_singleton.mp hrow] at hx
        cases hx
  | consume challenge kind now =>
      obtain ⟨old, hmem, rfl⟩ := List.mem_map.mp hrow
      by_cases hc : old.consumable challenge kind now = true
      · rw [if_pos hc] at hx ⊢
        rcases List.mem_append.mp hx with hx | hx
        · exact hold old hmem x hx
        · rw [List.mem_singleton.mp hx]
          simp only [ChallengeRow.consumable, Bool.and_eq_true, beq_iff_eq] at hc
          obtain ⟨⟨⟨rfl, rfl⟩, -⟩, -⟩ := hc
          exact ⟨answer, List.mem_append_right _ (List.mem_singleton_self _)⟩
      · rw [if_neg hc] at hx ⊢
        exact hold old hmem x hx
  | register columns now hfresh => exact hold row hrow x hx
  | advance credentialId received now => exact hold row hrow x hx
  | audit op r events hx' => exact hold row hrow x hx

theorem consumptionsExecuted_execution
    (hh : Execution (identityWorld Caller P sealer start) h s) : ConsumptionsExecuted h s :=
  hh.invariant (I := ConsumptionsExecuted) (fun row hrow => (by cases hrow))
    fun e hs hx => consumptionsExecuted_snoc e hs (exec_effect hx)

variable [DecidableEq Caller] {L : Libraries} {state : AppState} {calls : Caller → Call}
  {c : Config (identityWorld Caller L.toPrimitives sealer start) Response}

/-- A finished call that succeeded. -/
def Succeeded (c : Config (identityWorld Caller L.toPrimitives sealer start) Response)
    (i : Caller) : Prop :=
  ∃ a, c.procs i = some (.ret a) ∧ a.Success

/-- A finished `authentication_verify` that returned an assertion, with the
credential and the counter it presented. -/
structure LoggedIn (calls : Caller → Call)
    (c : Config (identityWorld Caller L.toPrimitives sealer start) Response) (i : Caller)
    (credentialId : Bytes) (signCount : UInt32) : Prop where
  finished : ∃ assertion, c.procs i = some (.ret (.authenticated assertion))
  presented : ∃ req inputs parsed, calls i = .authenticationVerify req ∧
    authenticationInputs L req = .ok inputs ∧ inputs.credentialId = credentialId ∧
    parseAssertionAuthData inputs.authenticatorData = .ok parsed ∧ parsed.signCount = signCount

/-- Replay and clone detection, in one state of a run. -/
structure CeremoniesSafe (calls : Caller → Call)
    (c : Config (identityWorld Caller L.toPrimitives sealer start) Response) : Prop where
  distinct : (c.state.challenges.map ChallengeRow.challenge).Nodup
  consumed_once : ∀ row ∈ c.state.challenges, row.consumptions.length ≤ 1
  consumed_by_own_kind : ∀ row ∈ c.state.challenges, ∀ x ∈ row.consumptions,
    (calls x.caller).Consumes L row.challenge row.ceremonyKind
  consumed_in_time : ∀ row ∈ c.state.challenges, ∀ x ∈ row.consumptions, x.at_ < row.expiresAt
  success_consumed : ∀ i, Succeeded c i → ∃ row ∈ c.state.challenges,
    (calls i).Consumes L row.challenge row.ceremonyKind ∧ ∃ x ∈ row.consumptions, x.caller = i
  one_success : ∀ i j challenge kind kind', (calls i).Consumes L challenge kind →
    (calls j).Consumes L challenge kind' → Succeeded c i → Succeeded c j → i = j
  counts_increasing : ∀ row ∈ c.state.authenticators,
    row.advances.Pairwise fun x y => x.signCount < y.signCount
  logins_counted : ∀ i credentialId signCount, LoggedIn calls c i credentialId signCount →
    ∃ row ∈ c.state.authenticators, row.credentialId = credentialId ∧
      ⟨i, signCount⟩ ∈ row.advances

theorem consumes_unique {call : Call} {challenge challenge' : Bytes} {kind kind' : String}
    (h : call.Consumes L challenge kind) (h' : call.Consumes L challenge' kind') :
    challenge' = challenge ∧ kind' = kind := by
  cases call with
  | registrationChallenge subjectId => exact h.elim
  | registrationVerify req =>
      obtain ⟨rfl, inputs, hinputs, rfl⟩ := h
      obtain ⟨rfl, inputs', hinputs', rfl⟩ := h'
      rw [hinputs] at hinputs'
      exact ⟨by rw [Except.ok.inj hinputs'], rfl⟩
  | authenticationChallenge subjectId => exact h.elim
  | authenticationVerify req =>
      obtain ⟨rfl, inputs, hinputs, rfl⟩ := h
      obtain ⟨rfl, inputs', hinputs', rfl⟩ := h'
      rw [hinputs] at hinputs'
      exact ⟨by rw [Except.ok.inj hinputs'], rfl⟩
  | record raw => exact h.elim

/-- The program and the acts of a call. -/
theorem performs_program (hc : History (identityWorld Caller L.toPrimitives sealer start)
      (Serves L state calls) h c) {i : Caller} {q : IdentityProg Response}
    (hi : c.procs i = some q) : Performs ((calls i).program L state) (ownActs i h) q := by
  obtain ⟨p, rfl, hp⟩ := hc.performs hi
  exact hp

/-- What a call executed is within its reach. -/
theorem may_of_mem (hc : History (identityWorld Caller L.toPrimitives sealer start)
      (Serves L state calls) h c) {e : Executed Caller IdentityOp.Resp} (he : e ∈ h) :
    (calls e.caller).May L e.op := by
  refine hc.within (S := fun i => (calls i).May L) ?_ he
  rintro i p rfl
  exact within_program (calls i)

/-- A successful call has consumed the challenge it presented. -/
theorem consumedBy_of_succeeded (hc : History (identityWorld Caller L.toPrimitives sealer start)
      (Serves L state calls) h c) {i : Caller} (hi : Succeeded c i) :
    ∃ challenge kind, (calls i).Consumes L challenge kind ∧
      ConsumedBy i challenge kind c.state := by
  obtain ⟨a, hret, ha⟩ := hi
  have hperf := performs_program hc hret
  have hconsumed : ∀ {challenge kind} subjectId,
      (⟨.consumeChallenge challenge kind, .ok (some subjectId)⟩ : IdentityAct) ∈ ownActs i h →
      ConsumedBy i challenge kind c.state := fun subjectId hact =>
    execution_of_mem consumedBy_effect (mem_of_mem_ownActs hact) consumedBy_of_exec hc.executes
  rcases call_of_success hperf ha with ⟨req, hcall⟩ | ⟨req, hcall⟩
  · rw [hcall] at hperf ⊢
    obtain ⟨inputs, subjectId, outcome, l', hreg, hl, -⟩ := performs_registered hperf ha
    refine ⟨inputs.presented, "registration", ⟨rfl, inputs, hreg.decoded, rfl⟩, hconsumed subjectId ?_⟩
    rw [hl]
    exact List.mem_cons_self
  · rw [hcall] at hperf ⊢
    obtain ⟨inputs, subjectId, columns, row, claims, eventId, now, sealed_, assertion, l', hauth, -,
      -, hl, -⟩ := performs_authenticated hperf ha
    refine ⟨inputs.presented, "authentication", ⟨rfl, inputs, hauth.decoded, rfl⟩, hconsumed subjectId ?_⟩
    rw [hl]
    exact List.mem_cons_self

theorem credentialId_of_authenticatorRow {columns : AuthenticatorColumns} {row : AuthenticatorRow}
    (h : authenticatorRow columns = some row) : row.credentialId = columns.credentialId := by
  obtain ⟨algorithm, -, rfl⟩ := Option.map_eq_some_iff.mp h
  rfl

/-- The row a call works with is the one of the credential presented. -/
theorem credentialId_of_selected (hc : History (identityWorld Caller L.toPrimitives sealer start)
      (Serves L state calls) h c) {i : Caller} {credentialId : Bytes}
    {columns : AuthenticatorColumns} {row : AuthenticatorRow}
    (hact : (⟨.selectAuthenticator credentialId, .ok (some columns)⟩ : IdentityAct) ∈ ownActs i h)
    (hrow : authenticatorRow columns = some row) : row.credentialId = credentialId := by
  rw [credentialId_of_authenticatorRow hrow]
  exact execution_of_mem (A := fun _ => columns.credentialId = credentialId) (fun hA _ => hA)
    (mem_of_mem_ownActs hact) credentialId_of_exec hc.executes

/-- A login has moved the counter of the credential it presented to the count
it presented. -/
theorem advancedBy_of_loggedIn (hc : History (identityWorld Caller L.toPrimitives sealer start)
      (Serves L state calls) h c) {i : Caller} {credentialId : Bytes} {signCount : UInt32}
    (hi : LoggedIn calls c i credentialId signCount) :
    AdvancedBy i credentialId signCount c.state := by
  obtain ⟨⟨assertion, hret⟩, req, inputs, parsed, hcall, hinputs, rfl, hparsed, rfl⟩ := hi
  have hperf := performs_program hc hret
  rw [hcall] at hperf
  obtain ⟨inputs', subjectId, columns, row, claims, eventId, now, sealed_, assertion', l', hauth,
    hrow, -, hl, -⟩ := performs_authenticated hperf trivial
  obtain rfl : inputs' = inputs := Except.ok.inj (hauth.decoded.symm.trans hinputs)
  -- the row was selected by the identifier presented
  have hid : row.credentialId = inputs'.credentialId := by
    refine credentialId_of_selected hc (i := i) ?_ hrow
    rw [hl]
    exact List.mem_cons_of_mem _ List.mem_cons_self
  -- and the count checked is the count presented
  obtain ⟨challenge, -, hceremony⟩ := hauth.ceremony
  obtain ⟨parsed', hp, -, rfl⟩ := verifyAuthenticationCeremony_eq_ok_iff.mp hceremony
  obtain rfl : parsed' = parsed := Except.ok.inj (hp.authData.symm.trans hparsed)
  have hadvanced : (⟨.advanceSignCount row.credentialId parsed'.signCount, .ok 1⟩ :
      IdentityAct) ∈ ownActs i h := by
    rw [hl]
    exact List.mem_cons_of_mem _ (List.mem_cons_of_mem _ List.mem_cons_self)
  rw [← hid]
  exact execution_of_mem advancedBy_effect (mem_of_mem_ownActs hadvanced) advancedBy_of_exec
    hc.executes

/-- **Replay and clone detection hold in every reachable state.** For any
number of calls in any interleaving, with any statement failing at any time:
a challenge is consumed at most once, in time, by a verify call of its own
kind that presents it, and yields at most one success; the counter updates of
a credential are strictly increasing, and every login is one of them. -/
theorem ceremonies_safe (hc : Reachable (identityWorld Caller L.toPrimitives sealer start)
    (Serves L state calls) c) : CeremoniesSafe calls c := by
  obtain ⟨h, hc⟩ := History.of_reachable hc
  have hchallenges := challengesOk_execution hc.executes
  have hauthenticators := authenticatorsOk_execution hc.executes
  constructor
  · exact hchallenges.distinct
  · exact fun row hrow => (hchallenges.each row hrow).once
  · intro row hrow x hx
    obtain ⟨r, hr⟩ := consumptionsExecuted_execution hc.executes row hrow x hx
    exact may_of_mem hc hr
  · exact fun row hrow => (hchallenges.each row hrow).inTime
  · intro i hi
    obtain ⟨challenge, kind, hconsumes, row, hrow, rfl, rfl, hx⟩ := consumedBy_of_succeeded hc hi
    exact ⟨row, hrow, hconsumes, hx⟩
  · intro i j challenge kind kind' hi hj hsi hsj
    obtain ⟨ch, k, hci, row, hrow, hch, -, x, hx, rfl⟩ := consumedBy_of_succeeded hc hsi
    obtain ⟨ch', k', hcj, row', hrow', hch', -, y, hy, rfl⟩ := consumedBy_of_succeeded hc hsj
    have hsame : row = row' := by
      refine hchallenges.eq_of_key hrow hrow' ?_
      rw [hch, hch', (consumes_unique hi hci).1, (consumes_unique hj hcj).1]
    subst hsame
    -- both consumptions stand in a list of at most one
    have honce := (hchallenges.each row hrow).once
    obtain ⟨z, hz⟩ := List.length_eq_one_iff.mp
      (Nat.le_antisymm honce (List.length_pos_of_mem hx))
    rw [hz, List.mem_singleton] at hx hy
    rw [hx, hy]
  · exact fun row hrow => (hauthenticators.each row hrow).increasing
  · exact fun i credentialId signCount hi => advancedBy_of_loggedIn hc hi

end Runs

/-! ## A registration and a login

Four calls one after the other, with available services. -/

section Scenario

def sampleState : AppState where
  authorityDomain := "identity-provider"
  auditSealer := ⟨"b18b86ce1389e46d"⟩
  assertionSealer := ⟨"b18b86ce1389e46d"⟩
  rpId := "zero-secret.example"
  origin := "https://zero-secret.example"
  audience := "access-broker"
  challengeTtlSeconds := 120
  assertionTtlSeconds := 120

/-- The octets `from`, `from + 1`, … -/
def sampleChallenge (from_ : Nat) : Challenge where
  bytes := (List.range 32).map fun n => UInt8.ofNat (from_ + n)
  length_eq := by simp [challengeLen]

/-- The environment of the call number `n`: its own challenge and identifier. -/
def sampleServices (n : Nat) : IdentityServices where
  challenge := sampleChallenge (16 * n)
  assertionHsm := fun _ => some (List.replicate 64 0x01)
  audit := {
    hsm := fun _ => some (List.replicate 64 0x01)
    newV7 := "0190a3c4-0000-7000-8000-00000000000" ++ String.ofList [n.digitChar]
    now := 1756000000
    marshal := fun _ => [] }

def sampleRegistration (attestationObject : String) : RegistrationVerifyRequest where
  clientDataJson := "eyJ0eXBlIjoid2ViYXV0aG4uY3JlYXRlIiwiY2hhbGxlbmdlIjoiQUFFQ0F3UUZCZ2NJQ1FvTERBME9E" ++
    "eEFSRWhNVUZSWVhHQmthR3h3ZEhoOCIsIm9yaWdpbiI6Imh0dHBzOi8vemVyby1zZWNyZXQuZXhhbXBsZSJ9"
  attestationObject := attestationObject

def sampleLogin (authenticatorData signature : String) : AuthenticationVerifyRequest where
  credentialId := "AQIDBA"
  clientDataJson := "eyJ0eXBlIjoid2ViYXV0aG4uZ2V0IiwiY2hhbGxlbmdlIjoiSUNFaUl5UWxKaWNvS1NvckxDMHVMekF4" ++
    "TWpNME5UWTNPRGs2T3p3OVBqOCIsIm9yaWdpbiI6Imh0dHBzOi8vemVyby1zZWNyZXQuZXhhbXBsZSJ9"
  authenticatorData := authenticatorData
  signature := signature

/-- A registration for a subject, then a login. -/
def sampleCalls (subjectId : String) (registration : RegistrationVerifyRequest)
    (login : AuthenticationVerifyRequest) : Nat → Call
  | 0 => .registrationChallenge subjectId
  | 1 => .registrationVerify registration
  | 2 => .authenticationChallenge subjectId
  | _ => .authenticationVerify login

/-- An authenticator with a counter registers at one. -/
def countingRegistration : RegistrationVerifyRequest :=
  sampleRegistration ("o2NmbXRkbm9uZWdhdHRTdG10oGhhdXRoRGF0YViID5GGteFBzyftBNsO_64BBvEg0qiQkfQMBv-" ++
    "jnjS9WVtBAAAAAQAAAAAAAAAAAAAAAAAAAAAABAECAwSlAQIDJiABIVggYP7UuiVanTHJYet0xjVtaMBJuJI7Yfps" ++
    "5mliLmDyn7YiWCB5A_4QCLi8maQa6elWKLxk8vGyDC1-n1F3o8KU1EYimQ")

/-- It logs in at two. -/
def countingLogin : AuthenticationVerifyRequest :=
  sampleLogin "D5GGteFBzyftBNsO_64BBvEg0qiQkfQMBv-jnjS9WVsFAAAAAg"
    "vyMUkO0s90byQdzXzgT8oL-g8ejzFstSYsYnAHs6g-yYHNli2M1TjRt8wVEHOjXcvfbgjdhOGLOmtkEYrf7EzA"

def countingCalls : Nat → Call := sampleCalls "alice" countingRegistration countingLogin

abbrev sampleWorld : World Nat IdentityOp IdentityOp.Resp :=
  identityWorld Nat Libraries.standard.toPrimitives ⟨"b18b86ce1389e46d"⟩ 0

def samplePrograms (calls : Nat → Call) (n : Nat) : IdentityProg Response :=
  (calls n).program .standard sampleState

def sampleAnswer (n : Nat) (op : IdentityOp) (s : sampleWorld.State) :
    op.Resp × sampleWorld.State :=
  (sampleServices n).answer Libraries.standard.toPrimitives ⟨"b18b86ce1389e46d"⟩ n op s

/-- The response to a call of a scenario. -/
def sampleResult (calls : Nat → Call) (n : Nat) : Response :=
  resultOf (W := sampleWorld) (samplePrograms calls) sampleAnswer n

def sampleStateAfter (calls : Nat → Call) (n : Nat) : IdentityDb Nat :=
  stateAfter (W := sampleWorld) (samplePrograms calls) sampleAnswer n

def sampleTrace (calls : Nat → Call) (n : Nat) : List IdentityAct :=
  traceOf (W := sampleWorld) (samplePrograms calls) sampleAnswer n

/-- Calls run one after the other are a run. -/
theorem sample_history (calls : Nat → Call) (n : Nat) :
    ∃ h c, History sampleWorld (Serves .standard sampleState calls) h c ∧
      c.state = sampleStateAfter calls n ∧
      (c.procs = fun i => if i < n then some (.ret (sampleResult calls i)) else none) ∧
      ∀ i < n, ownActs i h = sampleTrace calls i := by
  refine History.sequential (W := sampleWorld) (samplePrograms calls) sampleAnswer ?_ ?_ n
  · exact fun _ => rfl
  · exact fun n op s => (sampleServices n).answer_exec _ _ n op s

/-! What a scenario comes to is evaluated with the functions for the kernel. -/

def evaluatedPrograms (calls : Nat → Call) (n : Nat) : IdentityProg Response :=
  (calls n).program .evaluated sampleState

def evaluatedAnswer (n : Nat) (op : IdentityOp) (s : sampleWorld.State) :
    op.Resp × sampleWorld.State :=
  (sampleServices n).answer Primitives.evaluated ⟨"b18b86ce1389e46d"⟩ n op s

theorem samplePrograms_eq (calls : Nat → Call) : samplePrograms calls = evaluatedPrograms calls := by
  funext n
  rw [samplePrograms, Libraries.standard_eq_evaluated, evaluatedPrograms]

theorem sampleAnswer_eq : sampleAnswer = evaluatedAnswer := by
  funext n op s
  rw [sampleAnswer, Libraries.standard_eq_evaluated]
  rfl

theorem sampleResult_eq (calls : Nat → Call) (n : Nat) :
    sampleResult calls n =
      resultOf (W := sampleWorld) (evaluatedPrograms calls) evaluatedAnswer n := by
  rw [sampleResult, samplePrograms_eq, sampleAnswer_eq]

theorem sampleStateAfter_eq (calls : Nat → Call) (n : Nat) :
    sampleStateAfter calls n =
      stateAfter (W := sampleWorld) (evaluatedPrograms calls) evaluatedAnswer n := by
  rw [sampleStateAfter, samplePrograms_eq, sampleAnswer_eq]

theorem sampleTrace_eq (calls : Nat → Call) (n : Nat) :
    sampleTrace calls n =
      traceOf (W := sampleWorld) (evaluatedPrograms calls) evaluatedAnswer n := by
  rw [sampleTrace, samplePrograms_eq, sampleAnswer_eq]

def Response.isAuthenticated : Response → Bool
  | .authenticated _ => true
  | _ => false

theorem countingCalls_run :
    ((sampleResult countingCalls 3).isAuthenticated &&
      (sampleStateAfter countingCalls 4).authenticators.all fun row => row.subjectId = "alice") =
      true := by
  rw [sampleResult_eq, sampleStateAfter_eq]
  decide +kernel

/-- The credential is registered for the subject of the challenge. -/
theorem countingCalls_subjectId :
    ∀ row ∈ (sampleStateAfter countingCalls 4).authenticators, row.subjectId = "alice" := by
  have hrun := (Bool.and_eq_true_iff.mp countingCalls_run).2
  exact fun row hrow => of_decide_eq_true (List.all_eq_true.mp hrun row hrow)

theorem countingCalls_loggedIn : ∃ assertion, sampleResult countingCalls 3 =
    .authenticated assertion := by
  have h := (Bool.and_eq_true_iff.mp countingCalls_run).1
  revert h
  cases sampleResult countingCalls 3 with
  | authenticated assertion => exact fun _ => ⟨assertion, rfl⟩
  | challenge _ _ _ => exact fun h => (by cases h)
  | authenticationChallenge _ _ _ _ => exact fun h => (by cases h)
  | registered _ => exact fun h => (by cases h)
  | refused _ => exact fun h => (by cases h)
  | panicked => exact fun h => (by cases h)
  | collector _ => exact fun h => (by cases h)

/-- A run with a login, in which all of this holds. -/
theorem ceremonies_safe_countingCalls :
    ∃ c : Config sampleWorld Response,
      Reachable sampleWorld (Serves .standard sampleState countingCalls) c ∧ Succeeded c 3 ∧
      CeremoniesSafe countingCalls c := by
  obtain ⟨h, c, hc, -, hprocs, -⟩ := sample_history countingCalls 4
  obtain ⟨assertion, hresult⟩ := countingCalls_loggedIn
  have hthree : c.procs 3 = some (.ret (.authenticated assertion)) := by
    rw [hprocs, ← hresult]
    rfl
  exact ⟨c, hc.reachable, ⟨_, hthree, trivial⟩, ceremonies_safe hc.reachable⟩

end Scenario

end ZeroSecret.Identity
