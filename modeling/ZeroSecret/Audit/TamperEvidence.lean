import ZeroSecret.Audit.Chain
import ZeroSecret.Crypto.AuditSealSize
import ZeroSecret.Crypto.AuditSealVerified

/-!
# The head of a verified chain determines its history

The octets of an event carry its position and the hash of the event before
it, and `verify` reads both out of the very octets that the next event hashes.
So from the last octets of a chain the whole chain can be read backwards, as
long as no two of the octet strings at hand collide.
-/

namespace ZeroSecret.Audit

open Crypto

/-- The chain entry of an event that was verified, as the readers of a chain
build it. -/
def ChainEntry.ofVerified (event : AuditSeal.VerifiedAuditEvent) (bytes : Bytes) : ChainEntry where
  authorityDomain := event.authorityDomain
  sequence := UInt64.ofNat event.sequence
  prevHash := event.prevHash
  sealedBytes := bytes

/-- Verify every element, collect the entries. -/
def verifiedEntries (P : Primitives) (keys : List AuditSeal.AcceptedVerifyingKey)
    (policy : AuditSeal.AcceptancePolicy) (events : List Bytes) :
    Except AuditSeal.VerifyError (List ChainEntry) :=
  events.mapM fun bytes => do
    let event ← AuditSeal.verify P keys bytes policy
    .ok (ChainEntry.ofVerified event bytes)

/-! ## What the octets say -/

/-- `entry` is what `verify` extracts from its octets for the domain, under
some keys and accepted suites. -/
def Extracted (P : Primitives) (domain : String) (entry : ChainEntry) : Prop :=
  ∃ keys policy event, policy.expectedAuthorityDomain = domain ∧
    AuditSeal.verify P keys entry.sealedBytes policy = .ok event ∧
    entry = ChainEntry.ofVerified event entry.sealedBytes

/-- What is reported of accepted octets does not depend on keys and policy. -/
theorem verify_event_unique {P : Primitives} {keys keys' : List AuditSeal.AcceptedVerifyingKey}
    {bytes : Bytes} {policy policy' : AuditSeal.AcceptancePolicy}
    {event event' : AuditSeal.VerifiedAuditEvent}
    (h : AuditSeal.verify P keys bytes policy = .ok event)
    (h' : AuditSeal.verify P keys' bytes policy' = .ok event') : event = event' := by
  obtain ⟨-, doc, hdoc, -, hacc⟩ := AuditSeal.verify_eq_ok_iff.mp h
  obtain ⟨-, doc', hdoc', -, hacc'⟩ := AuditSeal.verify_eq_ok_iff.mp h'
  obtain rfl : doc = doc' := Option.some.inj (hdoc.symm.trans hdoc')
  obtain ⟨hid, hseq, hat, hdom⟩ := hacc.reported
  obtain ⟨hid', hseq', hat', hdom'⟩ := hacc'.reported
  have htype := Option.some.inj (hacc.eventType.symm.trans hacc'.eventType)
  have hprev : event.prevHash = event'.prevHash :=
    Subtype.ext (Option.some.inj (hacc.prevHash.symm.trans hacc'.prevHash))
  cases event
  cases event'
  simp_all

theorem Extracted.eq_of_sealedBytes {P : Primitives} {domain : String} {e e' : ChainEntry}
    (h : Extracted P domain e) (h' : Extracted P domain e')
    (hb : e.sealedBytes = e'.sealedBytes) : e = e' := by
  obtain ⟨keys, policy, event, -, hv, he⟩ := h
  obtain ⟨keys', policy', event', -, hv', he'⟩ := h'
  rw [hb] at hv he
  rw [verify_event_unique hv hv'] at he
  exact he.trans he'.symm

theorem Extracted.domain_eq {P : Primitives} {domain : String} {e : ChainEntry}
    (h : Extracted P domain e) : e.authorityDomain = domain := by
  obtain ⟨keys, policy, event, hp, hv, he⟩ := h
  obtain ⟨-, doc, -, -, hacc⟩ := AuditSeal.verify_eq_ok_iff.mp hv
  rw [he, ← hp, ← hacc.domain]
  exact hacc.reported.2.2.2

/-- The entries are those of the octets, one for one. -/
theorem verifiedEntries_eq_ok {P : Primitives} {keys : List AuditSeal.AcceptedVerifyingKey}
    {policy : AuditSeal.AcceptancePolicy} {events : List Bytes} {entries : List ChainEntry}
    (h : verifiedEntries P keys policy events = .ok entries) :
    entries.map ChainEntry.sealedBytes = events ∧
      ∀ e ∈ entries, Extracted P policy.expectedAuthorityDomain e := by
  induction events generalizing entries with
  | nil =>
      obtain rfl := Except.ok.inj h
      exact ⟨rfl, fun e he => absurd he List.not_mem_nil⟩
  | cons b events ih =>
      unfold verifiedEntries at h
      rw [List.mapM_cons] at h
      obtain ⟨entry, hentry, h⟩ := Fallible.bind_eq_ok h
      obtain ⟨rest, hrest, h⟩ := Fallible.bind_eq_ok h
      obtain ⟨event, hevent, hof⟩ := Fallible.bind_eq_ok hentry
      obtain ⟨hmap, hall⟩ := ih hrest
      obtain rfl := Except.ok.inj hof
      obtain rfl := Except.ok.inj h
      refine ⟨by rw [List.map_cons, hmap]; rfl, ?_⟩
      intro e he
      rcases List.mem_cons.mp he with rfl | he
      · exact ⟨keys, policy, event, rfl, hevent, rfl⟩
      · exact hall e he

/-! ## Reading backwards -/

/-- The sequence of an entry counts the entries before it. -/
theorem linkedFrom_sequence {P : Primitives} {l : List ChainEntry} {e : ChainEntry}
    (h : KeyedLog.LinkedFrom (EntryFollows P) none (l ++ [e])) :
    e.sequence = UInt64.ofNat l.length := by
  induction l using List.reverseRecOn generalizing e with
  | nil => exact h.1.1
  | append_singleton l p ih =>
      obtain ⟨hl, he⟩ := KeyedLog.linkedFrom_of_snoc h
      rw [List.getLast?_concat, Option.some_or] at he
      rw [he.1, ih hl, List.length_append, List.length_singleton, UInt64.ofNat_add]
      rfl

/-- No two of these octet strings have one hash. -/
def CollisionFree (P : Primitives) (events : List Bytes) : Prop :=
  ∀ a ∈ events, ∀ b ∈ events, P.sha256 a = P.sha256 b → a = b

/-- **Backward induction.** Two linked chains of one domain with the same last
entry are equal. -/
theorem linked_eq_of_getLast {P : Primitives} {domain : String} {l l' : List ChainEntry}
    (hx : ∀ e ∈ l, Extracted P domain e) (hx' : ∀ e ∈ l', Extracted P domain e)
    (hlen : l.length ≤ 2 ^ 64) (hlen' : l'.length ≤ 2 ^ 64)
    (hfree : ∀ e ∈ l, ∀ e' ∈ l', P.sha256 e.sealedBytes = P.sha256 e'.sealedBytes →
      e.sealedBytes = e'.sealedBytes)
    (h : KeyedLog.LinkedFrom (EntryFollows P) none l)
    (h' : KeyedLog.LinkedFrom (EntryFollows P) none l')
    (hlast : l.getLast? = l'.getLast?) : l = l' := by
  induction l using List.reverseRecOn generalizing l' with
  | nil => exact (List.getLast?_eq_none_iff.mp hlast.symm).symm
  | append_singleton l e ih =>
      rw [List.getLast?_concat] at hlast
      obtain ⟨m, rfl⟩ : ∃ m, l' = m ++ [e] := List.getLast?_eq_some_iff.mp hlast.symm
      rw [List.length_append, List.length_singleton] at hlen hlen'
      have hcount : l.length = m.length := by
        have hs : UInt64.ofNat l.length = UInt64.ofNat m.length :=
          (linkedFrom_sequence h).symm.trans (linkedFrom_sequence h')
        have ht := congrArg UInt64.toNat hs
        rwa [UInt64.toNat_ofNat', UInt64.toNat_ofNat', Nat.mod_eq_of_lt (by omega),
          Nat.mod_eq_of_lt (by omega)] at ht
      obtain ⟨hl, he⟩ := KeyedLog.linkedFrom_of_snoc h
      obtain ⟨hm, he'⟩ := KeyedLog.linkedFrom_of_snoc h'
      have hprev : l.getLast? = m.getLast? := by
        cases hlp : l.getLast? with
        | none =>
            rw [List.getLast?_eq_none_iff] at hlp
            subst hlp
            rw [List.length_eq_zero_iff.mp hcount.symm]
            rfl
        | some p =>
            cases hmp : m.getLast? with
            | none =>
                rw [List.getLast?_eq_none_iff] at hmp
                subst hmp
                rw [List.length_eq_zero_iff.mp hcount] at hlp
                cases hlp
            | some q =>
                have hpl : p ∈ l ++ [e] := List.mem_append_left _ (List.mem_of_getLast? hlp)
                have hqm : q ∈ m ++ [e] := List.mem_append_left _ (List.mem_of_getLast? hmp)
                rw [hlp, Option.some_or] at he
                rw [hmp, Option.some_or] at he'
                -- both predecessors have the hash that `e` carries
                have hhash : P.sha256 p.sealedBytes = P.sha256 q.sealedBytes :=
                  he.2.symm.trans he'.2
                have hpq : p = q := (hx p hpl).eq_of_sealedBytes (hx' q hqm)
                  (hfree p hpl q hqm hhash)
                rw [hpq]
      have hmem : ∀ {k : List ChainEntry} {x : ChainEntry}, x ∈ k → x ∈ k ++ [e] :=
        fun hin => List.mem_append_left _ hin
      rw [ih (fun x hx1 => hx x (hmem hx1)) (fun x hx1 => hx' x (hmem hx1)) (by omega) (by omega)
        (fun x hx1 y hy => hfree x (hmem hx1) y (hmem hy)) hl hm hprev]

/-- **Tamper evidence before the head.** Two lists of octet strings that are
accepted for one domain, by whatever keys, and whose entries pass
`verify_chain`, are equal as soon as their last elements are. The lists are
Rust slices: no more than `isize::MAX` elements. -/
theorem history_eq_of_head (P : Primitives) (domain : String)
    (keys keys' : List AuditSeal.AcceptedVerifyingKey) (suites suites' : List String)
    (events events' : List Bytes) (entries entries' : List ChainEntry)
    (hlen : events.length < 2 ^ 63) (hlen' : events'.length < 2 ^ 63)
    (hfree : CollisionFree P (events ++ events'))
    (hv : verifiedEntries P keys ⟨suites, domain⟩ events = .ok entries)
    (hv' : verifiedEntries P keys' ⟨suites', domain⟩ events' = .ok entries')
    (hc : verifyChain P entries = .ok ()) (hc' : verifyChain P entries' = .ok ())
    (hhead : events.getLast? = events'.getLast?) : events = events' := by
  obtain ⟨hmap, hx⟩ := verifiedEntries_eq_ok hv
  obtain ⟨hmap', hx'⟩ := verifiedEntries_eq_ok hv'
  have hlinked : ∀ {l : List ChainEntry}, verifyChain P l = .ok () →
      (∀ e ∈ l, Extracted P domain e) → KeyedLog.LinkedFrom (EntryFollows P) none l := by
    intro l hl hext
    have h := ((verifyChain_ok_iff P l).mp hl).2 domain
    rwa [KeyedLog.ofKey_eq_self _ fun e he => (hext e he).domain_eq] at h
  have hlast : entries.getLast? = entries'.getLast? := by
    rw [← hmap, ← hmap', List.getLast?_map, List.getLast?_map] at hhead
    cases he : entries.getLast? with
    | none => exact absurd (List.getLast?_eq_none_iff.mp he) ((verifyChain_ok_iff P _).mp hc).1
    | some e =>
        cases he' : entries'.getLast? with
        | none =>
            exact absurd (List.getLast?_eq_none_iff.mp he') ((verifyChain_ok_iff P _).mp hc').1
        | some e' =>
            rw [he, he', Option.map_some, Option.map_some] at hhead
            rw [(hx e (List.mem_of_getLast? he)).eq_of_sealedBytes
              (hx' e' (List.mem_of_getLast? he')) (Option.some.inj hhead)]
  have hsize : entries.length = events.length := by rw [← hmap, List.length_map]
  have hsize' : entries'.length = events'.length := by rw [← hmap', List.length_map]
  have hmem : ∀ e ∈ entries, e.sealedBytes ∈ events := by
    intro e he
    rw [← hmap]
    exact List.mem_map_of_mem he
  have hmem' : ∀ e ∈ entries', e.sealedBytes ∈ events' := by
    intro e he
    rw [← hmap']
    exact List.mem_map_of_mem he
  have heq : entries = entries' := linked_eq_of_getLast hx hx' (by omega) (by omega)
    (fun e he e' he' => hfree _ (List.mem_append_left _ (hmem e he)) _
      (List.mem_append_right _ (hmem' e' he')))
    (hlinked hc hx) (hlinked hc' hx') hlast
  rw [← hmap, ← hmap', heq]

/-! ### Two events -/

/-- An event of alice at a position of the chain of `acme`. -/
def attemptAt (sequence : AuditSeal.Sequence) (prevHash : Digest) : AuditSeal.AuditEventFields where
  eventId := sampleEventId
  sequence := sequence
  prevHash := prevHash
  occurredAt := sampleInstant
  authorityDomain := AuditSeal.sampleDomain
  eventType := .authenticationAttempted
  actor := {
    subjectId := sampleSubject
    kind := .human
    aal := none
    authMethod := none }
  target := none
  outcome := .success
  context := none
  decision := none

def attemptKey : AuditSeal.AcceptedVerifyingKey := ⟨"b18b86ce1389e46d", sampleKey⟩

def attemptPolicy : AuditSeal.AcceptancePolicy := ⟨[AuditSeal.suiteV1], "acme"⟩

def attemptBytes (fields : AuditSeal.AuditEventFields) (signature : Bytes) : Bytes :=
  AuditSeal.sealedDocument (AuditSeal.unsignedDocument fields) attemptKey.keyId signature

theorem verify_attempt {sequence : AuditSeal.Sequence} {prevHash : Digest} {signature : Bytes}
    (h64 : signature.length = 64)
    (hsig : Primitives.standard.ecdsaP256Sha256Fixed attemptKey.raw
      (AuditSeal.signedMessage AuditSeal.domainPrefixV1
        (AuditSeal.unsignedDocument (attemptAt sequence prevHash))) signature = true) :
    AuditSeal.verify Primitives.standard [attemptKey]
      (attemptBytes (attemptAt sequence prevHash) signature) attemptPolicy =
      .ok (attemptAt sequence prevHash).verified := by
  have hlen : (AuditSeal.sealedDocument (AuditSeal.unsignedDocument (attemptAt sequence prevHash))
      attemptKey.keyId signature).length ≤ AuditSeal.maxBytes := by
    rw [AuditSeal.sealedDocument_size _ _ h64]
    refine AuditSeal.fits_of_short ?_ (by decide) (by decide)
    rintro d ⟨⟩
  have hkey : [attemptKey].find? (fun k => k.keyId == attemptKey.keyId) = some attemptKey := by
    rw [List.find?_cons, beq_self_eq_true]
  exact AuditSeal.verify_sealedDocument rfl hlen hkey hsig List.mem_cons_self rfl

def firstAttempt : AuditSeal.AuditEventFields := attemptAt ⟨0, by decide⟩ chainRoot

def firstSignature : Bytes :=
  (hexDecode ("6dfbe0461f4d4d80a26a5668bf3e3cf45268f3de1b88e040abf09cf1e458d5bc" ++
    "a2a702b19be1928c661929b556f50ea95570a20c1c7926442ed8437f19c62b88")).getD []

def firstBytes : Bytes := attemptBytes firstAttempt firstSignature

def firstHash : Digest :=
  ⟨(hexDecode "51cf8aece26a24ab911571f1fdb699b504610999e9bee0ba3b8ed0f6772a2d36").getD [],
    by decide +kernel⟩

theorem sha256_firstBytes : Primitives.standard.sha256 firstBytes = firstHash := by
  rw [Primitives.standard_eq_evaluated]
  decide +kernel

def secondAttempt : AuditSeal.AuditEventFields := attemptAt ⟨1, by decide⟩ firstHash

def secondSignature : Bytes :=
  (hexDecode ("2583450b56924023ea66f33184f69c09b1847102ecfeb0479a88554e32ae9838" ++
    "468a92ac6c771008e60bf4a4741a6f54ab2097de6568a16a320cb36f716bbfce")).getD []

def secondBytes : Bytes := attemptBytes secondAttempt secondSignature

def attemptEntries : List ChainEntry :=
  [ChainEntry.ofVerified firstAttempt.verified firstBytes,
    ChainEntry.ofVerified secondAttempt.verified secondBytes]

theorem verifiedEntries_attempts :
    verifiedEntries Primitives.standard [attemptKey] attemptPolicy [firstBytes, secondBytes] =
      .ok attemptEntries := by
  have h0 : AuditSeal.verify Primitives.standard [attemptKey] firstBytes attemptPolicy =
      .ok firstAttempt.verified := by
    refine verify_attempt (by decide +kernel) ?_
    rw [Primitives.standard_eq_evaluated]
    decide +kernel
  have h1 : AuditSeal.verify Primitives.standard [attemptKey] secondBytes attemptPolicy =
      .ok secondAttempt.verified := by
    refine verify_attempt (by decide +kernel) ?_
    rw [Primitives.standard_eq_evaluated]
    decide +kernel
  rw [verifiedEntries, List.mapM_cons, h0, Fallible.ok_bind, Fallible.ok_bind, List.mapM_cons, h1,
    Fallible.ok_bind, Fallible.ok_bind]
  rfl

theorem verifyChain_attempts : verifyChain Primitives.standard attemptEntries = .ok () := by
  refine (verifyChain_ok_iff _ _).mpr ⟨List.cons_ne_nil _ _, fun d => ?_⟩
  unfold attemptEntries
  by_cases hd : "acme" = d
  · subst hd
    rw [KeyedLog.ofKey_eq_self]
    · exact ⟨⟨rfl, rfl⟩, ⟨rfl, sha256_firstBytes.symm⟩, trivial⟩
    · intro e he
      rcases List.mem_cons.mp he with rfl | he
      · rfl
      · rw [List.mem_singleton.mp he]
        rfl
  · rw [KeyedLog.ofKey_cons_other _ hd, KeyedLog.ofKey_cons_other _ hd]
    exact trivial

theorem collisionFree_attempts : CollisionFree Primitives.standard
    ([firstBytes, secondBytes] ++ [firstBytes, secondBytes]) := by
  have hne : firstHash ≠ Primitives.standard.sha256 secondBytes := by
    rw [Primitives.standard_eq_evaluated]
    decide +kernel
  rw [← sha256_firstBytes] at hne
  have hcases : ∀ a ∈ [firstBytes, secondBytes] ++ [firstBytes, secondBytes],
      a = firstBytes ∨ a = secondBytes := by
    intro a ha
    rcases List.mem_append.mp ha with ha | ha
    · simpa using ha
    · simpa using ha
  intro a ha b hb hab
  rcases hcases a ha with rfl | rfl
  · rcases hcases b hb with rfl | rfl
    · rfl
    · exact absurd hab hne
  · rcases hcases b hb with rfl | rfl
    · exact absurd hab.symm hne
    · rfl

/-- Two readings of a chain of two signed events. -/
theorem history_eq_of_head_attempts :
    verifiedEntries Primitives.standard [attemptKey] attemptPolicy [firstBytes, secondBytes] =
      .ok attemptEntries ∧
    verifyChain Primitives.standard attemptEntries = .ok () ∧
    [firstBytes, secondBytes] = [firstBytes, secondBytes] :=
  ⟨verifiedEntries_attempts, verifyChain_attempts,
    history_eq_of_head Primitives.standard "acme" [attemptKey] [attemptKey] [AuditSeal.suiteV1]
      [AuditSeal.suiteV1] _ _ attemptEntries attemptEntries (by decide) (by decide)
      collisionFree_attempts verifiedEntries_attempts verifiedEntries_attempts
      verifyChain_attempts verifyChain_attempts rfl⟩

end ZeroSecret.Audit
