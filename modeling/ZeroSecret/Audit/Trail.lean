import ZeroSecret.Audit.Fidelity

/-!
# audit-collector as its clients see it

A client sends one event after the other and gets an answer to each. With
every service available and no other writer, an event leaves exactly one row
if it is admissible and none if it is not; which of the two, the client learns
from the answer alone.
-/

namespace ZeroSecret.Audit

open Crypto Crypto.AuditSeal Fallible Interleave

/-- The store and the answers so far; the `n`-th call is caller `n`. -/
structure Trail where
  table : Table Nat
  answers : List CallResult

/-- `API.Record` of `internal/grpcapi`. A panic ends the process, and the call
with it. -/
def grpcRecord : CallResult → Except String RecordResult
  | .recorded result => .ok result
  | .recordError message => .error ("réception indisponible : " ++ message)
  | _ => .error "connexion interrompue"

/-- A call from a client: `env n` is what the services give the `n`-th one. -/
def Trail.record (P : Primitives) (sealer : AuditSealer) (env : Nat → Services) (raw : RawEvent)
    (s : Trail) : Except String RecordResult × Trail :=
  let n := s.answers.length
  let call := (Collector.record raw).run ((env n).answer P sealer n) s.table
  (grpcRecord call.1, ⟨call.2, s.answers ++ [call.1]⟩)

/-- One event after the other. -/
def Trail.recordAll (P : Primitives) (sealer : AuditSealer) (env : Nat → Services) (s : Trail)
    (events : List RawEvent) : Trail :=
  events.foldl (fun s raw => (s.record P sealer env raw).2) s

/-- The row holds the document of the event. -/
def Persisted (raw : RawEvent) (row : StoredRow Nat) : Prop :=
  ∃ actor eventId head prevHash occurredAt signature, raw.actor = some actor ∧
    WireDocument.fromSlice row.sealedBytes =
      some (raw.document actor eventId head prevHash occurredAt signature)

/-- Nothing stands in the way of the next `n` calls: the HSM signs, the
identifiers are new, the clock is between 1970 and 9999 and the sequences are
not used up. -/
structure Available (P : Primitives) (env : Nat → Services) (s : Trail) (n : Nat) : Prop where
  inv : ChainInv P s.table
  owners : ∀ r ∈ s.table, r.owner < s.answers.length
  room : s.table.length + n ≤ maxSafeInteger + 1
  eventId : ∀ k < n, uuidValid true (octets (env (s.answers.length + k)).newV7) = true
  fresh : ∀ k < n, ∀ r ∈ s.table, r.eventId ≠ (env (s.answers.length + k)).newV7
  distinct : ∀ j k, j < k → k < n →
    (env (s.answers.length + j)).newV7 ≠ (env (s.answers.length + k)).newV7
  now : ∀ k < n, 0 ≤ (env (s.answers.length + k)).now ∧
    (env (s.answers.length + k)).now < 253402300800
  signs : ∀ k < n, ∀ digest, ∃ sig, (env (s.answers.length + k)).hsm digest = some sig

section Trail

variable {P : Primitives} (publicKey : Bytes) {env : Nat → Services} {s : Trail} {raw : RawEvent}

theorem Available.receives {n : Nat} (h : Available P env s (n + 1)) :
    Receives P (env s.answers.length) s.table where
  inv := h.inv
  room := by
    have hroom := h.room
    omega
  fresh := h.fresh 0 (Nat.succ_pos n)
  eventId := h.eventId 0 (Nat.succ_pos n)
  now := h.now 0 (Nat.succ_pos n)
  signs := h.signs 0 (Nat.succ_pos n)

theorem Available.mono {m n : Nat} (h : Available P env s n) (hm : m ≤ n) :
    Available P env s m where
  inv := h.inv
  owners := h.owners
  room := le_trans (Nat.add_le_add_left hm _) h.room
  eventId := fun k hk => h.eventId k (hk.trans_le hm)
  fresh := fun k hk => h.fresh k (hk.trans_le hm)
  distinct := fun j k hjk hk => h.distinct j k hjk (hk.trans_le hm)
  now := fun k hk => h.now k (hk.trans_le hm)
  signs := fun k hk => h.signs k (hk.trans_le hm)

/-- **One call.** An admissible event is accepted and adds its row, any other
one is not and adds none. -/
theorem Trail.record_cases {n : Nat} (h : Available P env s (n + 1)) (hshort : raw.Short) :
    ∃ rows answer, (s.record P (.ofPublicKey P publicKey) env raw).2 =
        ⟨s.table ++ rows, s.answers ++ [answer]⟩ ∧
      (answer.succeeded = true ↔ raw.Admissible) ∧
      (∀ r ∈ rows, r.owner = s.answers.length ∧ r.eventId = (env s.answers.length).newV7) ∧
      (raw.Admissible → ∃ row, rows = [row] ∧ Persisted raw row) ∧
      (¬ raw.Admissible → rows = []) := by
  have hr := h.receives
  have hseal := @seal_succeeds_iff P publicKey (env s.answers.length).hsm raw
    (headOf s.table raw.authorityDomain) (linkOf P (headOf s.table raw.authorityDomain))
    (env s.answers.length).newV7 (env s.answers.length).now hr.signs hshort
    (hr.placed raw.authorityDomain)
  simp only [Trail.record, record_run]
  cases hs : SealerService.seal P (.ofPublicKey P publicKey) (env s.answers.length).hsm
      (sealRequestFor P (env s.answers.length) raw s.table) with
  | error status =>
      have hnot : ¬ raw.Admissible := by
        intro hadmissible
        obtain ⟨out, hout⟩ := hseal.mpr hadmissible
        cases hs.symm.trans hout
      refine ⟨[], Collector.sealRefusal status, by rw [List.append_nil], ?_, ?_, ?_, fun _ => rfl⟩
      · rw [sealRefusal_failed]
        exact iff_of_false Bool.false_ne_true hnot
      · intro r hmem
        cases hmem
      · intro hadmissible
        exact absurd hadmissible hnot
  | ok sealedBytes =>
      have hadmissible := hseal.mp ⟨sealedBytes, hs⟩
      obtain ⟨actor, signature, hactor, -, hparsed⟩ := document_of_seal hs
      simp only [persist_run (hr.admits raw hs)]
      refine ⟨_, _, rfl, iff_of_true rfl hadmissible, ?_, ?_, ?_⟩
      · intro r hmem
        rw [List.mem_singleton.mp hmem]
        exact ⟨rfl, rfl⟩
      · intro _
        exact ⟨_, rfl, actor, _, _, _, _, signature, hactor, hparsed⟩
      · intro hnot
        exact absurd hadmissible hnot

/-- After a call the others still find every service available. -/
theorem Available.next {n : Nat} (h : Available P env s (n + 1)) (hshort : raw.Short) :
    Available P env (s.record P (.ofPublicKey P publicKey) env raw).2 n := by
  have hfresh : Fresh s.answers.length s.table :=
    fun r hr => Nat.ne_of_lt (h.owners r hr)
  have hinv : ChainInv P (s.record P (.ofPublicKey P publicKey) env raw).2.table :=
    h.receives.record_inv raw hfresh
  obtain ⟨rows, answer, hs, -, hrows, hone, hnone⟩ :=
    Trail.record_cases publicKey h hshort
  have hlength : rows.length ≤ 1 := by
    by_cases hadmissible : raw.Admissible
    · obtain ⟨row, rfl, -⟩ := hone hadmissible
      exact Nat.le_refl 1
    · rw [hnone hadmissible]
      exact Nat.zero_le 1
  rw [hs] at hinv ⊢
  have hshift : ∀ k, (s.answers ++ [answer]).length + k = s.answers.length + (k + 1) := by
    intro k
    simp only [List.length_append, List.length_singleton]
    omega
  constructor
  · exact hinv
  · intro r hr
    simp only [List.length_append, List.length_singleton]
    rcases List.mem_append.mp hr with hr | hr
    · exact Nat.lt_succ_of_lt (h.owners r hr)
    · rw [(hrows r hr).1]
      exact Nat.lt_succ_self _
  · have hroom := h.room
    simp only [List.length_append]
    omega
  · intro k hk
    rw [hshift]
    exact h.eventId (k + 1) (Nat.succ_lt_succ hk)
  · intro k hk r hr
    rw [hshift]
    rcases List.mem_append.mp hr with hr | hr
    · exact h.fresh (k + 1) (Nat.succ_lt_succ hk) r hr
    · rw [(hrows r hr).2]
      exact h.distinct 0 (k + 1) (Nat.succ_pos k) (Nat.succ_lt_succ hk)
  · intro j k hjk hk
    rw [hshift, hshift]
    exact h.distinct (j + 1) (k + 1) (Nat.succ_lt_succ hjk) (Nat.succ_lt_succ hk)
  · intro k hk
    rw [hshift]
    exact h.now (k + 1) (Nat.succ_lt_succ hk)
  · intro k hk
    rw [hshift]
    exact h.signs (k + 1) (Nat.succ_lt_succ hk)

open Classical in
/-- **A batch of events.** The rows it leaves are those of its admissible
events, in their order, and the answers say which ones they are. -/
theorem Trail.recordAll_spec {events : List RawEvent} (h : Available P env s events.length)
    (hshort : ∀ raw ∈ events, raw.Short) :
    ∃ rows answers, s.recordAll P (.ofPublicKey P publicKey) env events =
        ⟨s.table ++ rows, s.answers ++ answers⟩ ∧
      List.Forall₂ (fun raw answer => CallResult.succeeded answer = true ↔ raw.Admissible)
        events answers ∧
      List.Forall₂ Persisted (events.filter fun raw => decide raw.Admissible) rows := by
  induction events generalizing s with
  | nil => exact ⟨[], [], by simp [Trail.recordAll], .nil, .nil⟩
  | cons raw events ih =>
      have hraw := hshort raw List.mem_cons_self
      obtain ⟨rows, answer, hs, hanswer, -, hone, hnone⟩ :=
        Trail.record_cases publicKey h hraw
      have hnext := h.next publicKey hraw
      obtain ⟨rows', answers, hs', hanswers, hpersisted⟩ :=
        ih hnext fun raw hmem => hshort raw (List.mem_cons_of_mem _ hmem)
      refine ⟨rows ++ rows', answer :: answers, ?_, .cons hanswer hanswers, ?_⟩
      · change Trail.recordAll P _ env (s.record P _ env raw).2 events = _
        rw [hs', hs]
        simp
      · by_cases hadmissible : raw.Admissible
        · obtain ⟨row, rfl, hrow⟩ := hone hadmissible
          rw [List.filter_cons, if_pos (by simpa using hadmissible)]
          exact .cons hrow hpersisted
        · rw [hnone hadmissible, List.filter_cons, if_neg (by simpa using hadmissible)]
          exact hpersisted

end Trail

end ZeroSecret.Audit
