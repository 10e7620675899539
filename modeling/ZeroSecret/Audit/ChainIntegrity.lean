import ZeroSecret.Audit.Appenders
import ZeroSecret.Crypto.AuditSealRoundTrip

/-!
# The audit chain under concurrent writers

Both writers read the head, hash it, seal and insert in separate steps, with
nothing but the unique index between two of them. The invariant is that every
domain's rows, in insertion order, form a chain: consecutive sequences from 0,
each row's sealed octets carrying its own position and the hash of the row
before it. A writer only needs to remember that the head it read is in the
table; the unique index then leaves one place for its row, the end.
-/

namespace ZeroSecret.Audit

open Crypto Crypto.AuditSeal Fallible Interleave

/-! ## What sealed octets carry -/

/-- The octets parse to a document at this position of this domain. -/
def Carries (sealedBytes : Bytes) (authorityDomain : String) (sequence : Nat)
    (prevHash : Digest) : Prop :=
  ∃ doc, WireDocument.fromSlice sealedBytes = some doc ∧
    doc.authorityDomain = authorityDomain ∧ doc.sequence = sequence ∧
    hexDecode doc.prevHash = some prevHash.val

theorem carries_of_seal {P : Primitives} {sealer : AuditSealer} {hsm : HsmAnswer}
    {f : AuditEventFields} {out : Bytes} (h : sealer.seal P hsm f = .ok out) :
    Carries out f.authorityDomain.val f.sequence.val f.prevHash := by
  obtain ⟨-, -, sig, -, rfl⟩ := AuditSeal.seal_eq_ok h
  exact ⟨_, fromSlice_sealed f sealer.keyId sig, rfl, rfl, hexDecode_hexEncode _⟩

/-- What the service seals carries the position the request asked for. -/
theorem carries_of_rpc {P : Primitives} {sealer : AuditSealer} {hsm : HsmAnswer}
    {req : SealRequest} {out : Bytes} (h : SealerService.seal P sealer hsm req = .ok out) :
    ∃ prev : Digest, prev.val = req.prevHash ∧ req.sequence.toNat ≤ maxSafeInteger ∧
      Carries out req.authorityDomain req.sequence.toNat prev := by
  obtain ⟨fields, hf, hs⟩ := SealerService.seal_eq_ok h
  obtain ⟨-, hdomain, hseq, hprev⟩ := fieldsFromRequest_position hf
  have hc := carries_of_seal hs
  rw [hdomain, hseq] at hc
  exact ⟨fields.prevHash, hprev, hseq ▸ fields.sequence.property, hc⟩

/-! ## The chain of a domain -/

variable {Caller : Type}

/-- The position of a row. -/
def StoredRow.index (r : StoredRow Caller) : Nat := r.sequence.toNat

def domainOf (r : StoredRow Caller) : String := r.authorityDomain

/-- The hash the next row has to carry. -/
def expectedLink (P : Primitives) : Option (StoredRow Caller) → Digest
  | none => chainRoot
  | some r => hashSealedEvent P r.sealedBytes

/-- `row` continues the chain that ends in `prev`. -/
structure RowFollows (P : Primitives) (prev : Option (StoredRow Caller))
    (row : StoredRow Caller) : Prop where
  sequence : row.sequence = (KeyedLog.nextIndex StoredRow.index prev : Nat)
  bound : KeyedLog.nextIndex StoredRow.index prev ≤ maxSafeInteger
  carried : Carries row.sealedBytes row.authorityDomain
    (KeyedLog.nextIndex StoredRow.index prev) (expectedLink P prev)
  column : row.prevHash = hexEncode (expectedLink P prev).val

def ChainInv (P : Primitives) (table : Table Caller) : Prop :=
  KeyedLog.Linked domainOf (RowFollows P) table

theorem rowFollows_consecutive (P : Primitives) :
    KeyedLog.Consecutive StoredRow.index (@RowFollows Caller P) := by
  intro prev row h
  rw [StoredRow.index, h.sequence, Int.toNat_natCast]

/-- Every row stands where some row may follow. -/
theorem linkedFrom_mem {P : Primitives} {prev : Option (StoredRow Caller)}
    {l : List (StoredRow Caller)} (h : KeyedLog.LinkedFrom (RowFollows P) prev l)
    {r : StoredRow Caller} (hr : r ∈ l) : ∃ p, RowFollows P p r := by
  induction l generalizing prev with
  | nil => cases hr
  | cons a l ih =>
      rcases List.mem_cons.mp hr with rfl | hr
      · exact ⟨prev, h.1⟩
      · exact ih h.2 hr

theorem chainInv_mem {P : Primitives} {table : Table Caller} (h : ChainInv P table)
    {r : StoredRow Caller} (hr : r ∈ table) : ∃ p, RowFollows P p r :=
  linkedFrom_mem (h (domainOf r)) ((KeyedLog.mem_ofKey domainOf).mpr ⟨hr, rfl⟩)

/-- A sequence in the table is a natural number far from the integer bounds. -/
theorem chainInv_sequence {P : Primitives} {table : Table Caller} (h : ChainInv P table)
    {r : StoredRow Caller} (hr : r ∈ table) :
    r.sequence = r.index ∧ r.index ≤ maxSafeInteger := by
  obtain ⟨p, hp⟩ := chainInv_mem h hr
  have hseq := hp.sequence
  have hbound := hp.bound
  rw [StoredRow.index, hseq, Int.toNat_natCast]
  exact ⟨rfl, hbound⟩

/-! ## Integer conversions on that range -/

theorem asU64_succ {n : Nat} (h : n ≤ maxSafeInteger) : (asU64 n + 1).toNat = n + 1 := by
  have hb : maxSafeInteger = 9007199254740991 := rfl
  have hm : ((n : Int) % 2 ^ 64).toNat = n := by omega
  rw [asU64, hm, UInt64.toNat_add, UInt64.toNat_ofNat']
  change (n % 2 ^ 64 + 1) % 2 ^ 64 = n + 1
  omega

theorem asI64_toNat {n : UInt64} (h : n.toNat ≤ maxSafeInteger) : asI64 n = n.toNat := by
  have hb : maxSafeInteger = 9007199254740991 := rfl
  rw [asI64, if_pos (by omega)]

/-! ## What a writer remembers -/

/-- No row of `i` yet. -/
def Fresh (i : Caller) (table : Table Caller) : Prop := ∀ r ∈ table, r.owner ≠ i

/-- The position `(n, h)` was read off a row of the domain, or off none. -/
def SawHead (P : Primitives) (authorityDomain : String) (n : UInt64) (h : Digest)
    (table : Table Caller) : Prop :=
  (n = 0 ∧ h = chainRoot) ∨
    ∃ r ∈ table, r.authorityDomain = authorityDomain ∧ n.toNat = r.index + 1 ∧
      h = hashSealedEvent P r.sealedBytes

/-- The others only append rows of their own. -/
def Appended (i : Caller) (s t : Table Caller) : Prop :=
  ∃ rows, t = s ++ rows ∧ ∀ r ∈ rows, r.owner ≠ i

def auditLogic (Caller : Type) (P : Primitives) (sealer : AuditSealer) :
    Logic (auditWorld Caller P sealer) where
  Inv := ChainInv P
  Rely := Appended
  Pre := Fresh
  inv_init := fun _ => trivial
  pre_init := fun _ _ h => absurd h List.not_mem_nil
  rely_refl := fun _ s => ⟨[], (List.append_nil s).symm, fun _ h => absurd h List.not_mem_nil⟩
  rely_trans := by
    rintro i s t u ⟨rows, rfl, h⟩ ⟨rows', rfl, h'⟩
    refine ⟨rows ++ rows', List.append_assoc _ _ _, ?_⟩
    intro r hr
    rcases List.mem_append.mp hr with hr | hr
    · exact h r hr
    · exact h' r hr
  pre_stable := by
    rintro i s t hs ⟨rows, rfl, h⟩ r hr
    rcases List.mem_append.mp hr with hr | hr
    · exact hs r hr
    · exact h r hr

section Writers

variable {P : Primitives} {sealer : AuditSealer} {i : Caller}

theorem fresh_stable : (auditLogic Caller P sealer).Stable i (Fresh i) :=
  fun _ _ hs ht => (auditLogic Caller P sealer).pre_stable i hs ht

theorem sawHead_stable {d : String} {n : UInt64} {h : Digest} :
    (auditLogic Caller P sealer).Stable i (SawHead P d n h) := by
  rintro s t hs ⟨rows, rfl, -⟩
  rcases hs with h0 | ⟨r, hr, hrest⟩
  · exact Or.inl h0
  · exact Or.inr ⟨r, List.mem_append_left _ hr, hrest⟩

/-- What a writer holds between reading the head and inserting. -/
def Ready (P : Primitives) (i : Caller) (d : String) (n : UInt64) (h : Digest)
    (table : Table Caller) : Prop :=
  Fresh i table ∧ SawHead P d n h table

theorem ready_stable {d : String} {n : UInt64} {h : Digest} :
    (auditLogic Caller P sealer).Stable i (Ready P i d n h) :=
  fun s t hs ht => ⟨fresh_stable s t hs.1 ht, sawHead_stable s t hs.2 ht⟩

theorem mem_of_latestRow {rows : List (StoredRow Caller)} {r : StoredRow Caller}
    (h : latestRow rows = some r) : r ∈ rows := by
  induction rows with
  | nil => cases h
  | cons a rows ih =>
      rw [latestRow] at h
      split at h
      · obtain rfl := Option.some.inj h
        exact List.mem_cons_self
      · rename_i best hbest
        split at h
        · obtain rfl := Option.some.inj h
          exact List.mem_cons_of_mem _ (ih hbest)
        · obtain rfl := Option.some.inj h
          exact List.mem_cons_self

/-- What `SELECT` returned was in the table. -/
theorem selectHead_mem {table : Table Caller} {d : String} {sequence : Int} {bytes : Bytes}
    (h : selectHead table d = some (sequence, bytes)) :
    ∃ r ∈ table, r.authorityDomain = d ∧ r.sequence = sequence ∧ r.sealedBytes = bytes := by
  obtain ⟨r, hr, he⟩ := Option.map_eq_some_iff.mp h
  have hm := mem_of_latestRow hr
  rw [List.mem_filter] at hm
  obtain ⟨hs, hb⟩ := Prod.mk.inj he
  exact ⟨r, hm.1, by simpa using hm.2, hs, hb⟩

theorem sawHead_of_select {table : Table Caller} {d : String} {sequence : Int} {bytes : Bytes}
    (hinv : ChainInv P table) (h : selectHead table d = some (sequence, bytes)) :
    SawHead P d (asU64 sequence + 1) (hashSealedEvent P bytes) table := by
  obtain ⟨r, hr, hd, rfl, rfl⟩ := selectHead_mem h
  obtain ⟨hseq, hbound⟩ := chainInv_sequence hinv hr
  refine Or.inr ⟨r, hr, hd, ?_, rfl⟩
  rw [hseq, asU64_succ hbound]

/-! ## Inserting -/

/-- **The unique index leaves one place: the end of the chain.** -/
theorem chainInv_insert {table : Table Caller} {row : Row} {n : UInt64} {h : Digest}
    (hinv : ChainInv P table) (hadm : Admits table row)
    (hsaw : SawHead P row.authorityDomain n h table)
    (hseq : row.sequence = n.toNat) (hbound : n.toNat ≤ maxSafeInteger)
    (hcarried : Carries row.sealedBytes row.authorityDomain n.toNat h)
    (hcolumn : row.prevHash = hexEncode h.val) (i : Caller) :
    ChainInv P (table ++ [⟨row, i⟩]) := by
  have hR := @rowFollows_consecutive Caller P
  have hfree : ∀ r ∈ KeyedLog.ofKey domainOf table row.authorityDomain, r.index ≠ n.toNat := by
    intro r hr hidx
    obtain ⟨hr, hd⟩ := (KeyedLog.mem_ofKey domainOf).mp hr
    apply hadm.2.1 r hr hd
    rw [(chainInv_sequence hinv hr).1, hidx, hseq]
  have hlink : ∃ prev, (KeyedLog.ofKey domainOf table row.authorityDomain).getLast? = prev ∧
      n.toNat = KeyedLog.nextIndex StoredRow.index prev ∧ h = expectedLink P prev := by
    rcases hsaw with ⟨rfl, rfl⟩ | ⟨r, hr, hd, hn, rfl⟩
    · have hnil := KeyedLog.ofKey_eq_nil domainOf hR hinv hfree
      exact ⟨none, by rw [hnil]; rfl, rfl, rfl⟩
    · have hmem := (KeyedLog.mem_ofKey domainOf).mpr ⟨hr, hd⟩
      have hlast := KeyedLog.getLast_of_next_free domainOf hR hinv hmem
        (fun r' hr' => hn ▸ hfree r' hr')
      exact ⟨some r, hlast, hn, rfl⟩
  obtain ⟨prev, hprev, hn, rfl⟩ := hlink
  refine KeyedLog.linked_snoc domainOf hinv ?_
  change RowFollows P (KeyedLog.ofKey domainOf table row.authorityDomain).getLast? _
  rw [hprev]
  rw [hn] at hseq hbound hcarried
  exact ⟨hseq, hbound, hcarried, hcolumn⟩

/-! ## Reading the head -/

/-- The position a head of audit-collector stands for. -/
def HeadRead (P : Primitives) (i : Caller) (d : String) (head : ChainHead)
    (table : Table Caller) : Prop :=
  ∃ h, Ready P i d head.nextSequence h table ∧
    (head.prevSealedBytes = none ∧ h = chainRoot ∨
      ∃ b, head.prevSealedBytes = some b ∧ h = hashSealedEvent P b)

theorem headRead_stable {d : String} {head : ChainHead} :
    (auditLogic Caller P sealer).Stable i (HeadRead P i d head) := by
  rintro s t ⟨h, hready, hb⟩ ht
  exact ⟨h, ready_stable s t hready ht, hb⟩

/-- An assertion about an answer that only binds the `ok` answers. -/
theorem stable_ok {ε α : Type} {A : α → Table Caller → Prop}
    (hA : ∀ a, (auditLogic Caller P sealer).Stable i (A a)) (r : Except ε α) :
    (auditLogic Caller P sealer).Stable i (fun t => ∀ a, r = .ok a → A a t) :=
  fun s t hs ht a ha => hA a s t (hs a ha) ht

theorem selectHead_safe {d : String} {s : Table Caller} (hfresh : Fresh i s) :
    Safe (auditLogic Caller P sealer) (fun r t => Fresh i t ∧ ∀ o, r = .ok o →
      match o with
      | none => SawHead P d 0 chainRoot t
      | some (sequence, bytes) =>
          SawHead P d (asU64 sequence + 1) (hashSealedEvent P bytes) t) i
      (Db.selectHead d) s := by
  refine Logic.safe_perform (A := Fresh i) (fun t r u hx => hx.1) fresh_stable ?_ hfresh ?_
  · intro r s t hs ht
    refine ⟨fresh_stable s t hs.1 ht, ?_⟩
    intro o ho
    have h := hs.2 o ho
    rcases o with - | ⟨sequence, bytes⟩
    · exact sawHead_stable s t h ht
    · exact sawHead_stable s t h ht
  · rintro r t hinv hf ⟨-, ⟨e, rfl⟩ | rfl⟩
    · exact ⟨hf, fun o ho => by cases ho⟩
    · refine ⟨hf, ?_⟩
      intro o ho
      obtain rfl := Except.ok.inj ho
      cases hsel : selectHead t d with
      | none => exact Or.inl ⟨rfl, rfl⟩
      | some p => exact sawHead_of_select hinv hsel

theorem chainHead_safe {d : String} {s : Table Caller} (hinv : ChainInv P s)
    (hfresh : Fresh i s) :
    Safe (auditLogic Caller P sealer)
      (fun r t => ∀ head, r = .ok head → HeadRead P i d head t) i (Store.chainHead d) s := by
  refine Logic.safe_bind hinv (selectHead_safe hfresh) ?_
  rintro r t - ⟨hf, hsaw⟩
  rcases r with e | - | ⟨sequence, bytes⟩
  · exact Logic.safe_ret (stable_ok (fun _ => headRead_stable) _) (fun _ h => by cases h)
  · refine Logic.safe_ret (stable_ok (fun _ => headRead_stable) _) ?_
    intro head hh
    obtain rfl := Except.ok.inj hh
    exact ⟨chainRoot, ⟨hf, hsaw none rfl⟩, Or.inl ⟨rfl, rfl⟩⟩
  · refine Logic.safe_ret (stable_ok (fun _ => headRead_stable) _) ?_
    intro head hh
    obtain rfl := Except.ok.inj hh
    exact ⟨_, ⟨hf, hsaw _ rfl⟩, Or.inr ⟨bytes, rfl, rfl⟩⟩

theorem auditStore_chainHead_safe {d : String} {s : Table Caller} (hinv : ChainInv P s)
    (hfresh : Fresh i s) :
    Safe (auditLogic Caller P sealer) (fun r t => ∀ head, r = .ok head →
      Ready P i d head.nextSequence head.prevHash t) i (AuditStore.chainHead P d) s := by
  refine Logic.safe_bind hinv (selectHead_safe hfresh) ?_
  rintro r t - ⟨hf, hsaw⟩
  rcases r with e | - | ⟨sequence, bytes⟩
  · exact Logic.safe_ret (stable_ok (fun _ => ready_stable) _) (fun _ h => by cases h)
  · refine Logic.safe_ret (stable_ok (fun _ => ready_stable) _) ?_
    intro head hh
    obtain rfl := Except.ok.inj hh
    exact ⟨hf, hsaw none rfl⟩
  · refine Logic.safe_ret (stable_ok (fun _ => ready_stable) _) ?_
    intro head hh
    obtain rfl := Except.ok.inj hh
    exact ⟨hf, hsaw _ rfl⟩

/-- The hash audit-collector obtains is the one its head calls for. -/
theorem prevHash_safe {d : String} {head : ChainHead} {s : Table Caller}
    (hinv : ChainInv P s) (hread : HeadRead P i d head s) :
    Safe (auditLogic Caller P sealer) (fun r t => ∀ b, r = .ok b →
      ∃ h : Digest, h.val = b ∧ Ready P i d head.nextSequence h t) i
      (Collector.prevHash head) s := by
  have hstable : ∀ b : Bytes, (auditLogic Caller P sealer).Stable i
      (fun t => ∃ h : Digest, h.val = b ∧ Ready P i d head.nextSequence h t) := by
    rintro b s t ⟨h, hb, hr⟩ ht
    exact ⟨h, hb, ready_stable s t hr ht⟩
  obtain ⟨h, hready, ⟨hnone, rfl⟩ | ⟨b, hsome, rfl⟩⟩ := hread
  · rw [Collector.prevHash, hnone]
    refine Logic.safe_ret (stable_ok hstable _) ?_
    intro b hb
    exact ⟨chainRoot, Except.ok.inj hb, hready⟩
  · rw [Collector.prevHash, hsome]
    have hanswer : Safe (auditLogic Caller P sealer) (fun r t => ∀ b', r = .ok b' →
        ∃ h : Digest, h.val = b' ∧ Ready P i d head.nextSequence h t) i
        (SealingClient.hashPrevious b) s := by
      refine Logic.safe_perform (fun t r u hx => hx.1) ready_stable (stable_ok hstable)
        hready ?_
      rintro r t - hr ⟨-, ⟨e, rfl⟩ | rfl⟩ b' hb'
      · cases hb'
      · exact ⟨_, Except.ok.inj hb', hr⟩
    refine Logic.safe_bind hinv hanswer ?_
    intro r t _ hr
    cases r with
    | error e => exact Logic.safe_ret (stable_ok hstable _) (fun _ h => by cases h)
    | ok b' =>
        refine Logic.safe_ret (stable_ok hstable _) ?_
        intro b'' hb''
        obtain rfl := Except.ok.inj hb''
        exact hr b' rfl

/-- An operation that only answers leaves a ready writer ready. -/
theorem answer_safe {op : AuditOp} {A : Table Caller → Prop}
    (hread : ∀ (t : Table Caller) r u, auditExec P sealer i op t r u → u = t)
    (hA : (auditLogic Caller P sealer).Stable i A) {s : Table Caller} (h : A s) :
    Safe (auditLogic Caller P sealer) (fun _ t => A t) i (.perform op) s :=
  Logic.safe_perform hread hA (fun _ => hA) h fun _ _ _ ht _ => ht

theorem optionalProtoJSON_safe {A : Table Caller → Prop}
    (hA : (auditLogic Caller P sealer).Stable i A) (m : Option Message) {s : Table Caller}
    (hinv : ChainInv P s) (h : A s) :
    Safe (auditLogic Caller P sealer) (fun _ t => A t) i (optionalProtoJSON m) s := by
  cases m with
  | none => exact Logic.safe_ret hA h
  | some m =>
      refine Logic.safe_bind hinv (answer_safe (by exact fun _ _ _ hx => hx) hA h) ?_
      intro r t _ ht
      cases r with
      | error e => exact Logic.safe_ret hA ht
      | ok b => exact Logic.safe_ret hA ht

theorem eventIdString_safe {A : Table Caller → Prop}
    (hA : (auditLogic Caller P sealer).Stable i A) (explicit : Option ExplicitTarget)
    {s : Table Caller} (hinv : ChainInv P s) (h : A s) :
    Safe (auditLogic Caller P sealer) (fun _ t => A t) i (eventIdString explicit) s := by
  cases explicit with
  | some e => exact Logic.safe_ret hA h
  | none =>
      refine Logic.safe_bind hinv (answer_safe (by exact fun _ _ _ hx => hx) hA h) ?_
      intro r t _ ht
      cases r with
      | error e => exact Logic.safe_ret hA ht
      | ok id => exact Logic.safe_ret hA ht

theorem nowRfc3339_safe {A : Table Caller → Prop}
    (hA : (auditLogic Caller P sealer).Stable i A) {s : Table Caller} (hinv : ChainInv P s)
    (h : A s) : Safe (auditLogic Caller P sealer) (fun _ t => A t) i nowRfc3339 s := by
  refine Logic.safe_bind hinv (answer_safe (by exact fun _ _ _ hx => hx) hA h) ?_
  intro seconds t _ ht
  split
  · exact Logic.safe_ret hA ht
  · exact Logic.safe_ret hA ht

/-- What the sealing service returns to a ready writer carries its position. -/
theorem sealRpc_safe {req : SealRequest} {A : Table Caller → Prop}
    (hA : (auditLogic Caller P sealer).Stable i A) {s : Table Caller} (h : A s) :
    Safe (auditLogic Caller P sealer) (fun r t => A t ∧ ∀ out, r = .ok out →
      ∃ hsm, SealerService.seal P sealer hsm req = .ok out) i (SealingClient.seal req) s := by
  refine Logic.safe_perform (fun t r u hx => hx.1) hA
    (fun r u v hu huv => ⟨hA u v hu.1 huv, hu.2⟩) h ?_
  rintro r u - hu ⟨-, ⟨e, rfl⟩ | ⟨hsm, rfl⟩⟩
  · exact ⟨hu, fun _ h => by cases h⟩
  · exact ⟨hu, fun out hout => ⟨hsm, hout⟩⟩

/-- What identity-provider seals for itself is sealed from the fields it gave. -/
theorem sealBlocking_safe {local_ : AuditSealer} {fields : AuditEventFields}
    {A : Table Caller → Prop} (hA : (auditLogic Caller P sealer).Stable i A)
    {s : Table Caller} (h : A s) :
    Safe (auditLogic Caller P sealer) (fun r t => A t ∧ ∀ out, r = some (.ok out) →
      ∃ hsm, local_.seal P hsm fields = .ok out) i (spawnBlockingSeal local_ fields) s := by
  refine Logic.safe_perform (fun t r u hx => hx.1) hA
    (fun r u v hu huv => ⟨hA u v hu.1 huv, hu.2⟩) h ?_
  rintro r u - hu ⟨-, rfl | ⟨hsm, rfl⟩⟩
  · exact ⟨hu, fun _ h => by cases h⟩
  · exact ⟨hu, fun out hout => ⟨hsm, Option.some.inj hout⟩⟩

/-- The fields hold the position of the head. -/
theorem eventFields_position {state : AppState} {eventType : EventType} {subjectId : String}
    {target : Option Target} {justification : Option String} {outcome : Outcome}
    {head : AuditStore.ChainHead} {eventId occurredAt : String}
    {position : EventId × Sequence} {fields : AuditEventFields}
    (hp : positionFields head eventId = .ok position)
    (hf : eventFields state eventType subjectId target justification outcome head.prevHash
      position occurredAt = .ok fields) :
    fields.authorityDomain.val = state.authorityDomain ∧
      fields.sequence.val = head.nextSequence.toNat ∧ fields.prevHash = head.prevHash := by
  rw [positionFields] at hp
  obtain ⟨_, _, hp⟩ := bind_eq_ok hp
  obtain ⟨sequence, hseq, hp⟩ := bind_eq_ok hp
  obtain rfl := Except.ok.inj hp
  rw [eventFields] at hf
  obtain ⟨_, _, hf⟩ := bind_eq_ok hf
  obtain ⟨_, hdomain, hf⟩ := bind_eq_ok hf
  obtain ⟨_, _, hf⟩ := bind_eq_ok hf
  obtain rfl := Except.ok.inj hf
  exact ⟨BoundedAscii.val_of_new hdomain, sequence_val_of_new hseq, rfl⟩

/-! ## Ownership -/

variable [DecidableEq Caller]

/-- `row` is the one row `i` owns. -/
def OwnsExactly (i : Caller) (row : Row) (table : Table Caller) : Prop :=
  table.filter (fun r => r.owner = i) = [⟨row, i⟩]

theorem ownsExactly_append {row : Row} {table rows : Table Caller}
    (h : OwnsExactly i row table) (hrows : ∀ r ∈ rows, r.owner ≠ i) :
    OwnsExactly i row (table ++ rows) := by
  have hnil : rows.filter (fun r => decide (r.owner = i)) = [] := by
    rw [List.filter_eq_nil_iff]
    intro r hr
    simpa using hrows r hr
  rw [OwnsExactly, List.filter_append, hnil, List.append_nil]
  exact h

theorem ownsExactly_stable {row : Row} :
    (auditLogic Caller P sealer).Stable i (OwnsExactly i row) := by
  rintro s t hs ⟨rows, rfl, hrows⟩
  exact ownsExactly_append hs hrows

theorem ownsExactly_insert {table : Table Caller} (hfresh : Fresh i table) (row : Row) :
    OwnsExactly i row (table ++ [⟨row, i⟩]) := by
  have hnil : table.filter (fun r => decide (r.owner = i)) = [] := by
    rw [List.filter_eq_nil_iff]
    intro r hr
    simpa using hfresh r hr
  rw [OwnsExactly, List.filter_append, hnil]
  simp

/-- What a result says of the row its call owns. -/
def CallResult.Reports : CallResult → Row → Prop
  | .recorded res, row => row.eventId = res.eventId ∧ row.sequence = res.sequence.toNat
  | _, _ => True

def CallResult.succeeded : CallResult → Bool
  | .recorded res => res.accepted
  | .appended => true
  | _ => false

theorem sealRefusal_failed (status : Status) :
    (Collector.sealRefusal status).succeeded = false := by
  rw [Collector.sealRefusal]
  split
  · rfl
  · rfl

/-- A successful call owns exactly one row, the one it reports. -/
def OwnsIfSucceeded (i : Caller) (result : CallResult) (table : Table Caller) : Prop :=
  result.succeeded = true → ∃ row, OwnsExactly i row table ∧ result.Reports row

theorem ownsIfSucceeded_stable (result : CallResult) :
    (auditLogic Caller P sealer).Stable i (OwnsIfSucceeded i result) := by
  intro s t hs ht hok
  obtain ⟨row, hrow, hrep⟩ := hs hok
  exact ⟨row, ownsExactly_stable s t hrow ht, hrep⟩

/-- A call that failed promises nothing. -/
theorem safe_failure {result : CallResult} (h : result.succeeded = false)
    (s : Table Caller) :
    Safe (auditLogic Caller P sealer) (OwnsIfSucceeded i) i (.ret result) s := by
  refine Logic.safe_ret (ownsIfSucceeded_stable result) ?_
  intro hok
  rw [h] at hok
  cases hok

/-- The `INSERT` of a ready writer keeps every chain; reported as done, it
leaves the writer with one row. -/
theorem insert_safe {row : Row} {n : UInt64} {h : Digest} {s : Table Caller}
    (hready : Ready P i row.authorityDomain n h s)
    (hseq : row.sequence = n.toNat) (hbound : n.toNat ≤ maxSafeInteger)
    (hcarried : Carries row.sealedBytes row.authorityDomain n.toNat h)
    (hcolumn : row.prevHash = hexEncode h.val) :
    Safe (auditLogic Caller P sealer)
      (fun r t => r = .ok () → OwnsExactly i row t) i (Db.insert row) s := by
  intro t ht hinv r u hx
  obtain ⟨hfresh, hsaw⟩ := ready_stable s t hready ht
  rcases hx with ⟨e, rfl, rfl⟩ | ⟨hadm, rfl⟩
  · refine ⟨hinv, fun j _ => (auditLogic Caller P sealer).rely_refl j _, ?_⟩
    intro v _ _ hok
    cases hok
  · refine ⟨chainInv_insert hinv hadm hsaw hseq hbound hcarried hcolumn i, ?_, ?_⟩
    · intro j hj
      refine ⟨[⟨row, i⟩], rfl, ?_⟩
      intro r hr
      obtain rfl := List.mem_singleton.mp hr
      exact Ne.symm hj
    · intro v hv _ _
      exact ownsExactly_stable _ v (ownsExactly_insert hfresh row) hv

/-! ## audit-collector -/

theorem append_safe {row : Row} {n : UInt64} {h : Digest} {s : Table Caller}
    (hinv : ChainInv P s) (hready : Ready P i row.authorityDomain n h s)
    (hseq : row.sequence = n.toNat) (hbound : n.toNat ≤ maxSafeInteger)
    (hcarried : Carries row.sealedBytes row.authorityDomain n.toNat h)
    (hcolumn : row.prevHash = hexEncode h.val) :
    Safe (auditLogic Caller P sealer)
      (fun r t => r = .ok () → OwnsExactly i row t) i (Store.append row) s := by
  refine Logic.safe_bind hinv (insert_safe hready hseq hbound hcarried hcolumn) ?_
  intro r t _ hown
  cases r with
  | error e => exact fun _ _ _ h => by cases h
  | ok u => exact fun v hv _ _ => ownsExactly_stable t v (hown rfl) hv

theorem persist_safe {raw : RawEvent} {head : ChainHead} {h : Digest} {eventId : String}
    {occurredAt : Int} {sealedBytes : Bytes} {s : Table Caller} (hinv : ChainInv P s)
    (hready : Ready P i raw.authorityDomain head.nextSequence h s)
    (hbound : head.nextSequence.toNat ≤ maxSafeInteger)
    (hcarried : Carries sealedBytes raw.authorityDomain head.nextSequence.toNat h) :
    Safe (auditLogic Caller P sealer) (OwnsIfSucceeded i) i
      (Collector.persist raw head h.val eventId occurredAt sealedBytes) s := by
  refine Logic.safe_bind hinv (answer_safe (by exact fun _ _ _ hx => hx) ready_stable hready) ?_
  intro r t hinv hready
  cases r with
  | error e => exact safe_failure rfl t
  | ok actorJSON =>
  refine Logic.safe_bind hinv (optionalProtoJSON_safe ready_stable _ hinv hready) ?_
  intro r t hinv hready
  cases r with
  | none => exact safe_failure rfl t
  | some targetJSON =>
  refine Logic.safe_bind hinv (optionalProtoJSON_safe ready_stable _ hinv hready) ?_
  intro r t hinv hready
  cases r with
  | none => exact safe_failure rfl t
  | some contextJSON =>
  refine Logic.safe_bind hinv
    (append_safe hinv hready (asI64_toNat hbound) hbound hcarried rfl) ?_
  intro r t _ hown
  cases r with
  | error e => exact safe_failure rfl t
  | ok u =>
      refine Logic.safe_ret (ownsIfSucceeded_stable _) ?_
      intro _
      exact ⟨_, hown rfl, rfl, asI64_toNat hbound⟩

/-- **`Collector.Record` keeps the chains and owns what it reports.** -/
theorem record_safe (raw : RawEvent) {s : Table Caller} (hinv : ChainInv P s)
    (hfresh : Fresh i s) :
    Safe (auditLogic Caller P sealer) (OwnsIfSucceeded i) i (Collector.record raw) s := by
  refine Logic.safe_bind hinv (chainHead_safe hinv hfresh) ?_
  intro r t hinv hhead
  cases r with
  | error e => exact safe_failure rfl t
  | ok head =>
  refine Logic.safe_bind hinv (prevHash_safe hinv (hhead head rfl)) ?_
  intro r t hinv hprev
  cases r with
  | error e => exact safe_failure rfl t
  | ok prevHash =>
  obtain ⟨h, rfl, hready⟩ := hprev prevHash rfl
  refine Logic.safe_bind hinv (answer_safe (by exact fun _ _ _ hx => hx) ready_stable hready) ?_
  intro r t hinv hready
  cases r with
  | error e => exact safe_failure rfl t
  | ok eventId =>
  refine Logic.safe_bind hinv (answer_safe (by exact fun _ _ _ hx => hx) ready_stable hready) ?_
  intro occurredAt t hinv hready
  refine Logic.safe_bind hinv (sealRpc_safe ready_stable hready) ?_
  rintro r t hinv ⟨hready, hsealed⟩
  cases r with
  | error status => exact safe_failure (sealRefusal_failed status) t
  | ok sealedBytes =>
      -- the sealed octets carry the position that was asked for
      obtain ⟨hsm, hs⟩ := hsealed sealedBytes rfl
      obtain ⟨prev, hp, hbound, hcarried⟩ := carries_of_rpc hs
      obtain rfl : prev = h := Subtype.ext hp
      exact persist_safe hinv hready hbound hcarried

/-! ## identity-provider -/

/-- **`seal_and_append_audit_event` keeps the chains and owns a row when it
succeeds.** -/
theorem sealAndAppend_safe (state : AppState) (eventType : EventType) (subjectId : String)
    (explicit : Option ExplicitTarget) (justification : Option String) (outcome : Outcome)
    {s : Table Caller} (hinv : ChainInv P s) (hfresh : Fresh i s) :
    Safe (auditLogic Caller P sealer) (OwnsIfSucceeded i) i
      (sealAndAppendAuditEvent P state eventType subjectId explicit justification outcome)
      s := by
  refine Logic.safe_bind hinv (auditStore_chainHead_safe hinv hfresh) ?_
  intro r t hinv hhead
  cases r with
  | error e => exact safe_failure rfl t
  | ok head =>
  refine Logic.safe_bind hinv
    (eventIdString_safe ready_stable explicit hinv (hhead head rfl)) ?_
  intro r t hinv hready
  cases r with
  | none => exact safe_failure rfl t
  | some eventId =>
  dsimp only
  cases explicitTarget explicit with
  | none => exact safe_failure rfl t
  | some target =>
  dsimp only
  cases hp : positionFields head eventId with
  | error e => exact safe_failure rfl t
  | ok position =>
  refine Logic.safe_bind hinv (nowRfc3339_safe ready_stable hinv hready) ?_
  intro r t hinv hready
  cases r with
  | none => exact safe_failure rfl t
  | some occurredAt =>
  dsimp only
  cases hf : eventFields state eventType subjectId target justification outcome
      head.prevHash position occurredAt with
  | error e => exact safe_failure rfl t
  | ok fields =>
  refine Logic.safe_bind hinv (sealBlocking_safe ready_stable hready) ?_
  rintro r t hinv ⟨hready, hsealed⟩
  rcases r with - | e | sealedBytes
  · exact safe_failure rfl t
  · exact safe_failure rfl t
  refine Logic.safe_bind hinv (nowRfc3339_safe ready_stable hinv hready) ?_
  intro r t hinv hready
  cases r with
  | none => exact safe_failure rfl t
  | some insertedAt =>
  -- the sealed octets carry the position of the head
  obtain ⟨hsm, hs⟩ := hsealed sealedBytes rfl
  obtain ⟨hdomain, hseq, hprev⟩ := eventFields_position hp hf
  have hcarried := carries_of_seal hs
  have hbound := fields.sequence.property
  rw [hdomain, hseq, hprev] at hcarried
  rw [hseq] at hbound
  refine Logic.safe_bind hinv
    (insert_safe hready (asI64_toNat hbound) hbound hcarried rfl) ?_
  intro r t _ hown
  cases r with
  | error e => exact safe_failure rfl t
  | ok u =>
      refine Logic.safe_ret (ownsIfSucceeded_stable _) ?_
      intro _
      exact ⟨_, hown rfl, trivial⟩

end Writers

/-! ## Reading the table -/

/-- The entry a verifier makes of a row. -/
def Row.toChainEntry (row : Row) : Option ChainEntry := do
  let prevHash ← (hexDecode row.prevHash).bind digest32
  some ⟨row.authorityDomain, asU64 row.sequence, prevHash, row.sealedBytes⟩

/-- Rows read with every domain's sequences increasing; `ORDER BY sequence` is
one such order. -/
def InSequenceOrder (rows : Table Caller) : Prop :=
  rows.Pairwise fun a b => a.authorityDomain = b.authorityDomain → a.sequence < b.sequence

/-- **The audit chain is intact**: every domain holds exactly the sequences
`0 .. k-1`; every row's sealed octets carry the row's domain, its sequence and
the hash of the row before it; and `verify_chain` accepts the table in any
reading order. -/
structure ChainIntact (P : Primitives) (table : Table Caller) : Prop where
  sequences : ∀ d, ∃ k : Nat,
    ((table.filter fun r => r.authorityDomain = d).map fun r => r.sequence).Perm
      ((List.range k).map Int.ofNat)
  carried : ∀ r ∈ table, ∃ (n : Nat) (prev : Digest), r.sequence = n ∧
    Carries r.sealedBytes r.authorityDomain n prev ∧ (n = 0 → prev = chainRoot) ∧
    ∀ r' ∈ table, r'.authorityDomain = r.authorityDomain → r'.sequence + 1 = n →
      prev = hashSealedEvent P r'.sealedBytes
  accepted : ∀ rows : Table Caller, rows.Perm table → rows ≠ [] → InSequenceOrder rows →
    ∃ entries, rows.mapM (fun r => r.toRow.toChainEntry) = some entries ∧
      verifyChain P entries = .ok ()

theorem digest32_val (d : Digest) : digest32 d.val = some d := by
  rw [digest32, dif_pos d.property]

/-- The entry of a row whose columns are in order. -/
def StoredRow.entry (r : StoredRow Caller) : ChainEntry where
  authorityDomain := r.authorityDomain
  sequence := asU64 r.sequence
  prevHash := ((hexDecode r.prevHash).bind digest32).getD chainRoot
  sealedBytes := r.sealedBytes

theorem RowFollows.decoded {P : Primitives} {prev : Option (StoredRow Caller)}
    {r : StoredRow Caller} (h : RowFollows P prev r) :
    (hexDecode r.prevHash).bind digest32 = some (expectedLink P prev) := by
  rw [h.column, hexDecode_hexEncode, Option.bind_some, digest32_val]

theorem RowFollows.toChainEntry {P : Primitives} {prev : Option (StoredRow Caller)}
    {r : StoredRow Caller} (h : RowFollows P prev r) :
    r.toRow.toChainEntry = some r.entry := by
  rw [Row.toChainEntry, StoredRow.entry, h.decoded]
  rfl

theorem asU64_ofNat_succ (n : Nat) : asU64 ((n + 1 : Nat) : Int) = asU64 n + 1 := by
  have hm : ∀ m : Nat, ((m : Int) % 2 ^ 64).toNat = m % 2 ^ 64 := by
    intro m
    omega
  apply UInt64.toNat_inj.mp
  rw [asU64, asU64, hm, hm, UInt64.toNat_add, UInt64.toNat_ofNat', UInt64.toNat_ofNat']
  change (n + 1) % 2 ^ 64 % 2 ^ 64 = (n % 2 ^ 64 % 2 ^ 64 + 1) % 2 ^ 64
  omega

/-- A row that follows gives an entry that follows. -/
theorem RowFollows.entry {P : Primitives} {prev : Option (StoredRow Caller)}
    {r : StoredRow Caller} (hp : ∀ p ∈ prev, p.sequence = p.index) (h : RowFollows P prev r) :
    EntryFollows P (prev.map StoredRow.entry) r.entry := by
  have hprev : r.entry.prevHash = expectedLink P prev := by
    rw [StoredRow.entry, h.decoded]
    rfl
  cases prev with
  | none =>
      refine ⟨?_, hprev⟩
      rw [StoredRow.entry, h.sequence]
      rfl
  | some p =>
      refine ⟨?_, hprev⟩
      rw [StoredRow.entry, h.sequence]
      change asU64 ((p.index + 1 : Nat) : Int) = asU64 p.sequence + 1
      rw [asU64_ofNat_succ, hp p rfl]

theorem mapM_entries {P : Primitives} {rows : Table Caller}
    (h : ∀ r ∈ rows, ∃ p, RowFollows P p r) :
    rows.mapM (fun r => r.toRow.toChainEntry) = some (rows.map StoredRow.entry) := by
  induction rows with
  | nil => rfl
  | cons r rows ih =>
      obtain ⟨p, hp⟩ := h r List.mem_cons_self
      rw [List.mapM_cons, hp.toChainEntry, ih fun r' hr' => h r' (List.mem_cons_of_mem _ hr')]
      rfl

theorem chainInv_accepted {P : Primitives} {table rows : Table Caller}
    (hinv : ChainInv P table) (hperm : rows.Perm table) (hne : rows ≠ [])
    (horder : InSequenceOrder rows) :
    ∃ entries, rows.mapM (fun r => r.toRow.toChainEntry) = some entries ∧
      verifyChain P entries = .ok () := by
  have hseq : ∀ r ∈ rows, r.sequence = r.index := fun r hr =>
    (chainInv_sequence hinv (hperm.mem_iff.mp hr)).1
  have hin : KeyedLog.InOrder domainOf StoredRow.index rows := by
    refine List.Pairwise.imp_of_mem ?_ horder
    intro a b ha hb hab hd
    have hlt := hab hd
    rw [hseq a ha, hseq b hb] at hlt
    exact_mod_cast hlt
  have hlinked := KeyedLog.linked_of_perm domainOf (rowFollows_consecutive P) hinv hperm hin
  refine ⟨rows.map StoredRow.entry,
    mapM_entries fun r hr => chainInv_mem hinv (hperm.mem_iff.mp hr), ?_⟩
  refine (verifyChain_ok_iff P _).mpr ⟨by simpa using hne, ?_⟩
  exact KeyedLog.linked_map domainOf (f := StoredRow.entry) (fun _ => rfl)
    (fun _ _ hp h => h.entry hp) hseq hlinked

/-- A row carries what follows the row before it in its domain. -/
theorem linkedFrom_prev {P : Primitives} {l : List (StoredRow Caller)}
    {prev : Option (StoredRow Caller)} (h : KeyedLog.LinkedFrom (RowFollows P) prev l)
    {r : StoredRow Caller} (hr : r ∈ l) :
    ∃ p, RowFollows P p r ∧ ∀ q ∈ p, q ∈ prev ∨ q ∈ l := by
  induction l generalizing prev with
  | nil => cases hr
  | cons a l ih =>
      rcases List.mem_cons.mp hr with rfl | hr
      · exact ⟨prev, h.1, fun q hq => Or.inl hq⟩
      · obtain ⟨p, hp, hmem⟩ := ih h.2 hr
        refine ⟨p, hp, ?_⟩
        intro q hq
        rcases hmem q hq with hq | hq
        · obtain rfl := Option.mem_some_iff.mp hq
          exact Or.inr List.mem_cons_self
        · exact Or.inr (List.mem_cons_of_mem _ hq)

theorem chainInv_intact {P : Primitives} {table : Table Caller} (hinv : ChainInv P table) :
    ChainIntact P table where
  sequences := by
    intro d
    refine ⟨(KeyedLog.ofKey domainOf table d).length, ?_⟩
    have hidx := KeyedLog.linked_indices domainOf (rowFollows_consecutive P) hinv d
    have hmap : (KeyedLog.ofKey domainOf table d).map (fun r => r.sequence) =
        ((KeyedLog.ofKey domainOf table d).map StoredRow.index).map Int.ofNat := by
      rw [List.map_map]
      apply List.map_congr_left
      intro r hr
      exact (chainInv_sequence hinv ((KeyedLog.mem_ofKey domainOf).mp hr).1).1
    rw [hidx] at hmap
    exact List.Perm.of_eq hmap
  carried := by
    intro r hr
    have hmem := (KeyedLog.mem_ofKey domainOf).mpr ⟨hr, rfl⟩
    obtain ⟨p, hp, hin⟩ := linkedFrom_prev (hinv (domainOf r)) hmem
    refine ⟨_, expectedLink P p, hp.sequence, hp.carried, ?_, ?_⟩
    · intro h0
      cases p with
      | none => rfl
      | some q => cases h0
    · intro r' hr' hd hn
      have hr'seq := (chainInv_sequence hinv hr').1
      cases p with
      | none =>
          rw [hr'seq] at hn
          have h0 : r'.index + 1 =
              KeyedLog.nextIndex StoredRow.index (none : Option (StoredRow Caller)) := by
            exact_mod_cast hn
          cases h0
      | some q =>
          -- two rows of one domain at one index are one row
          have hq : q ∈ KeyedLog.ofKey domainOf table (domainOf r) := by
            rcases hin q rfl with h | h
            · cases h
            · exact h
          have heq : q = r' := by
            refine KeyedLog.linked_index_inj domainOf (rowFollows_consecutive P) hinv hq
              ((KeyedLog.mem_ofKey domainOf).mpr ⟨hr', hd⟩) ?_
            rw [hr'seq] at hn
            have : r'.index + 1 = q.index + 1 := by exact_mod_cast hn
            omega
          rw [heq]
          rfl
  accepted := fun _ hperm hne horder => chainInv_accepted hinv hperm hne horder

/-! ## Every interleaving -/

section Runs

variable [DecidableEq Caller]

theorem entry_safe (P : Primitives) (sealer : AuditSealer) (i : Caller)
    (p : AuditProg CallResult) (hp : AuditEntry P p) (s : Table Caller)
    (hinv : ChainInv P s) (hfresh : Fresh i s) :
    Safe (auditLogic Caller P sealer) (OwnsIfSucceeded i) i p s := by
  cases hp with
  | record raw => exact record_safe raw hinv hfresh
  | sealAndAppend state eventType subjectId explicit justification outcome =>
      exact sealAndAppend_safe state eventType subjectId explicit justification outcome hinv
        hfresh

/-- **The audit chain survives every interleaving of its writers.** In every
reachable configuration of any number of `Collector.Record` and
`seal_and_append_audit_event` calls, the chain is intact, and every call that
reported success owns exactly one row, the one it reports. -/
theorem audit_chain_intact (P : Primitives) (sealer : AuditSealer)
    (c : Config (auditWorld Caller P sealer) CallResult)
    (hc : Reachable (auditWorld Caller P sealer) (fun _ => AuditEntry P) c) :
    ChainIntact P (c.state : Table Caller) ∧
    ∀ (i : Caller) (result : CallResult), c.procs i = some (.ret result) →
      result.succeeded = true → ∃ row, OwnsExactly i row c.state ∧ result.Reports row := by
  have hsafe := Logic.reachable_safe (auditLogic Caller P sealer) OwnsIfSucceeded
    (entry_safe P sealer) hc
  refine ⟨chainInv_intact hsafe.1, ?_⟩
  intro i result hi hok
  exact Logic.reachable_post (auditLogic Caller P sealer) OwnsIfSucceeded
    (entry_safe P sealer) hc hi hok

/-- A call left alone with available services runs to its end. -/
theorem reachable_call {P : Primitives} {sealer : AuditSealer} (env : Services)
    {c : Config (auditWorld Caller P sealer) CallResult}
    (hc : Reachable (auditWorld Caller P sealer) (fun _ => AuditEntry P) c) {i : Caller}
    (hi : c.procs i = none) {p : AuditProg CallResult} (hp : AuditEntry P p) :
    ∃ c' : Config (auditWorld Caller P sealer) CallResult,
      Reachable (auditWorld Caller P sealer) (fun _ => AuditEntry P) c' ∧
      c'.state = (p.run (env.answer P sealer i) c.state).2 ∧
      c'.procs i = some (.ret (p.run (env.answer P sealer i) c.state).1) ∧
      ∀ j, j ≠ i → c'.procs j = c.procs j :=
  reachable_alone (W := auditWorld Caller P sealer) (env.answer_exec P sealer i) hc hi hp

/-! ### One run of both writers -/

def sampleSealer : AuditSealer := ⟨"0000000000000000"⟩

def sampleServices (newV7 : String) : Services where
  hsm := fun _ => some (List.replicate 64 0)
  newV7 := newV7
  now := 1777000000
  marshal := fun _ => []

def sampleRaw : RawEvent where
  authorityDomain := "acme"
  eventType := "quorum.operation"
  actor := some ⟨"bob", "human", none, none⟩
  target := none
  outcome := "success"
  context := none
  decision := none

def sampleAppend : AuditProg CallResult :=
  sealAndAppendAuditEvent Primitives.standard ⟨"acme", sampleSealer⟩
    .authenticatorRegistered "alice" none none .success

def afterAppend : CallResult × Table Nat :=
  sampleAppend.run ((sampleServices "01890000-0000-7000-8000-000000000000").answer
    Primitives.standard sampleSealer 0) []

def afterRecord : CallResult × Table Nat :=
  (Collector.record sampleRaw).run
    ((sampleServices "01890000-0000-7000-8000-000000000001").answer
      Primitives.standard sampleSealer 1) afterAppend.2

theorem sample_succeeds : afterAppend.1.succeeded = true ∧ afterRecord.1.succeeded = true ∧
    afterRecord.2.length = 2 := by
  rw [afterRecord, afterAppend, sampleAppend, Primitives.standard_eq_evaluated]
  decide +kernel

/-- identity-provider's call 0, then audit-collector's call 1, both to the end. -/
theorem audit_chain_intact_sample :
    ∃ c : Config (auditWorld Nat Primitives.standard sampleSealer) CallResult,
      ChainIntact Primitives.standard (c.state : Table Nat) ∧
      List.length (c.state : Table Nat) = 2 ∧
      (∃ row, OwnsExactly 0 row c.state) ∧ ∃ row, OwnsExactly 1 row c.state := by
  obtain ⟨c, hc, hstate, hproc, hother⟩ := reachable_call
    (sampleServices "01890000-0000-7000-8000-000000000000")
    (Reachable.init (W := auditWorld Nat Primitives.standard sampleSealer)) (i := 0) rfl
    (AuditEntry.sealAndAppend ⟨"acme", sampleSealer⟩ .authenticatorRegistered "alice" none
      none .success)
  obtain ⟨c', hc', hstate', hproc', hother'⟩ := reachable_call
    (sampleServices "01890000-0000-7000-8000-000000000001") hc (i := 1)
    (hother 1 (by decide)) (AuditEntry.record sampleRaw)
  rw [hstate] at hstate' hproc'
  rw [← hother' 0 (by decide)] at hproc
  obtain ⟨hintact, howns⟩ := audit_chain_intact Primitives.standard sampleSealer c' hc'
  obtain ⟨row0, h0, -⟩ := howns 0 afterAppend.1 hproc sample_succeeds.1
  obtain ⟨row1, h1, -⟩ := howns 1 afterRecord.1 hproc' sample_succeeds.2.1
  refine ⟨c', hintact, ?_, ⟨row0, h0⟩, ⟨row1, h1⟩⟩
  have hlen := sample_succeeds.2.2
  rw [hstate']
  exact hlen

end Runs

end ZeroSecret.Audit
