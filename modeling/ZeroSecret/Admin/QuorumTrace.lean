import ZeroSecret.Admin.Quorum
import ZeroSecret.Audit.Trail

/-!
# The trace of a critical operation

Every operation that was evaluated is reported to audit-collector: one event
of the caller and one of each bearer. admin-api logs a refusal and answers 200
all the same, so the trace is only as complete as the events are admissible;
and every one of them carries the operation id as the router read it.
-/

namespace ZeroSecret.Admin

open Access (VerifyAssertionResponse)
open Audit
open Crypto (BoundedAsciiOk Primitives)
open Crypto.AuditSeal (AuditSealer)

/-! ## The handler -/

section Handler

variable {σ : Type} (a : API σ)

/-- The events of an operation, the caller's first. -/
def quorumEvents (operationId : String) (caller : VerifyAssertionResponse)
    (result : Quorum.Result) (initiateurEtaitPorteur : Bool) : List RawEvent :=
  API.initiatorEvent operationId a.expectedAuthorityDomain caller result initiateurEtaitPorteur ::
    result.distinctSubjects.map fun subjectId =>
      API.bearerEvent operationId a.expectedAuthorityDomain subjectId result

/-- Without a ceiling every bearer is reported. -/
theorem recordBearers_eq {draw : Draw} (hceiling : ∀ i, draw.ceiling i = false)
    (operationId : String) (result : Quorum.Result) (i : Nat) (subjects : List String) (s : σ) :
    a.recordBearers draw operationId result i subjects s =
      (subjects.map fun subjectId =>
        API.bearerEvent operationId a.expectedAuthorityDomain subjectId result).foldl
        (fun s raw => (a.auditClient raw s).2) s := by
  induction subjects generalizing i s with
  | nil => rfl
  | cons subjectId subjects ih =>
      rw [API.recordBearers, if_neg (by simp [hceiling i]), ih]
      rfl

variable {a}

/-- A caller that is let through is the one the service named, at `AAL3`. -/
theorem verifyCaller_eq_ok {assertion : Bytes} {enTeteBrut : String}
    {caller : VerifyAssertionResponse} (h : a.verifyCaller assertion enTeteBrut = .ok caller) :
    a.identityClient assertion a.expectedAuthorityDomain = .ok (some caller) ∧
      caller.aal = "AAL3" := by
  unfold API.verifyCaller at h
  split at h
  · cases h
  split at h
  · cases h
  split at h
  · cases h
  · cases h
  rename_i resp hresp
  split at h
  · cases h
  split at h
  · cases h
  rename_i haal
  split at h
  · cases h
  obtain rfl := Except.ok.inj h
  exact ⟨hresp, not_not.mp haal⟩

/-- **What a 200 has done**: the caller is identified, the subjects are the
attested ones without the caller, and every event was sent. -/
theorem verifyQuorum_answered {draw : Draw} (hceiling : ∀ i, draw.ceiling i = false)
    {operationId : String} {assertion : Bytes} {enTeteBrut : String} {body : QuorumRequest} {s : σ}
    {result : Quorum.Result}
    (h : (a.verifyQuorum draw operationId assertion enTeteBrut (some body) s).1 =
      .quorum result) :
    ∃ caller porteur, a.identityClient assertion a.expectedAuthorityDomain = .ok (some caller) ∧
      caller.aal = "AAL3" ∧ result.distinctSubjects.Nodup ∧
      (∀ x, x ∈ result.distinctSubjects ↔ x ≠ caller.subjectId ∧
        Attested a.verifier a.expectedAuthorityDomain body.assertions x) ∧
      (porteur = true ↔
        Attested a.verifier a.expectedAuthorityDomain body.assertions caller.subjectId) ∧
      (a.verifyQuorum draw operationId assertion enTeteBrut (some body) s).2 =
        (quorumEvents a operationId caller result porteur).foldl
          (fun s raw => (a.auditClient raw s).2) s := by
  unfold API.verifyQuorum at h ⊢
  cases hcaller : a.verifyCaller assertion enTeteBrut with
  | error refus =>
      rw [hcaller] at h
      cases h
  | ok caller =>
  rw [hcaller] at h
  dsimp only at h ⊢
  obtain ⟨hidentity, haal⟩ := verifyCaller_eq_ok hcaller
  obtain ⟨hlen, hdomain, hthreshold⟩ := evaluate_gates h
  have hfloor : ¬ body.threshold < Quorum.minimumThreshold := Int.not_lt.mpr hthreshold
  unfold API.evaluate at h ⊢
  rw [if_neg (Nat.not_lt.mpr hlen), if_neg (not_not_intro hdomain), if_neg hfloor] at h ⊢
  unfold Quorum.verifyQuorum at h ⊢
  rw [if_neg hfloor, hdomain] at h ⊢
  cases hcollect : Quorum.collect a.verifier a.expectedAuthorityDomain body.assertions [] with
  | error failure =>
      rw [hcollect] at h
      cases failure with
      | err message => cases h
      | panic value => cases h
  | ok seen =>
  rw [hcollect] at h
  obtain rfl := HttpResponse.quorum.inj h
  obtain ⟨hnodup, hmem⟩ := collect_eq_ok List.nodup_nil hcollect
  have hperm := draw.order.property seen
  refine ⟨caller, (API.excludeInitiator ⟨decide (body.threshold ≤ (draw.order.val seen).length),
    draw.order.val seen⟩ caller.subjectId body.threshold).2, hidentity, haal,
    (hperm.nodup_iff.mpr hnodup).filter _, fun x => ?_, ?_, ?_⟩
  · change x ∈ List.filter _ _ ↔ _
    rw [List.mem_filter, hperm.mem_iff, hmem]
    simp [and_comm]
  · -- the caller was a bearer when the second count is not the first
    have hcount : (List.filter (fun sujet => sujet ≠ caller.subjectId)
        (draw.order.val seen)).length ≠ (draw.order.val seen).length ↔
        caller.subjectId ∈ draw.order.val seen := by
      rw [Ne, List.length_filter_eq_length_iff]
      simp
    rw [hperm.mem_iff, hmem] at hcount
    simpa [API.excludeInitiator] using hcount
  · change a.recordBearers draw operationId _ 0 _ _ = _
    rw [recordBearers_eq a hceiling]
    rfl

end Handler

/-! ## Which events are admissible -/

section Events

variable {operationId domain : String} {result : Quorum.Result}

theorem outcomeOf_known (result : Quorum.Result) :
    ∃ o, outcomeFromStr (API.outcomeOf result) = some o := by
  unfold API.outcomeOf
  split
  · exact ⟨_, rfl⟩
  · exact ⟨_, rfl⟩

theorem targetType_ok : BoundedAsciiOk 256 "critical_operation" := by decide

theorem motif_ok : BoundedAsciiOk 512 motifExclusionInitiateur := by decide

/-- The events of a quorum carry no decision. -/
theorem short_of_quorumOperation {raw : RawEvent} (htype : raw.eventType = "quorum.operation")
    (hdecision : raw.decision = none) : raw.Short := by
  refine ⟨?_, ?_, ?_⟩
  · intro t ht
    rw [htype] at ht
    obtain rfl := Option.some.inj ht
    rw [hdecision]
    rfl
  · intro d hd
    cases hdecision.symm.trans hd
  · intro d sig hd
    cases hdecision.symm.trans hd

theorem quorumEvents_short {σ : Type} (a : API σ) (caller : VerifyAssertionResponse)
    (porteur : Bool) : ∀ raw ∈ quorumEvents a operationId caller result porteur, raw.Short := by
  intro raw hraw
  rcases List.mem_cons.mp hraw with rfl | hraw
  · exact short_of_quorumOperation rfl rfl
  · obtain ⟨subjectId, -, rfl⟩ := List.mem_map.mp hraw
    exact short_of_quorumOperation rfl rfl

theorem initiatorEvent_admissible_iff {caller : VerifyAssertionResponse}
    (haal : caller.aal = "AAL3") (porteur : Bool) :
    (API.initiatorEvent operationId domain caller result porteur).Admissible ↔
      BoundedAsciiOk 256 operationId ∧ BoundedAsciiOk 128 domain ∧
        BoundedAsciiOk 256 caller.subjectId ∧ BoundedAsciiOk 64 caller.authMethod := by
  constructor
  · intro h
    obtain ⟨actor, hactor, hok⟩ := h.actor
    obtain rfl := Option.some.inj hactor
    exact ⟨(h.target _ rfl).id, h.authorityDomain, hok.subjectId, hok.authMethod _ rfl⟩
  · rintro ⟨hid, hdomain, hsubject, hmethod⟩
    refine ⟨⟨_, rfl⟩, outcomeOf_known result, ⟨_, rfl, ⟨_, rfl⟩, ?_, ?_, hsubject⟩, ?_, ?_, ?_, hdomain⟩
    · intro s hs
      obtain rfl := Option.some.inj hs
      rw [haal]
      exact ⟨_, rfl⟩
    · intro s hs
      obtain rfl := Option.some.inj hs
      exact hmethod
    · intro t ht
      obtain rfl := Option.some.inj ht
      exact ⟨targetType_ok, hid⟩
    · intro c hc
      cases porteur with
      | false => cases hc
      | true =>
          obtain rfl := Option.some.inj hc
          refine ⟨?_, ?_, ?_⟩
          · intro s hs
            cases hs
          · intro s hs
            cases hs
          · intro s hs
            obtain rfl := Option.some.inj hs
            exact motif_ok
    · intro d hd
      cases hd

theorem bearerEvent_admissible_iff {subjectId : String} :
    (API.bearerEvent operationId domain subjectId result).Admissible ↔
      BoundedAsciiOk 256 operationId ∧ BoundedAsciiOk 128 domain ∧
        BoundedAsciiOk 256 subjectId := by
  constructor
  · intro h
    obtain ⟨actor, hactor, hok⟩ := h.actor
    obtain rfl := Option.some.inj hactor
    exact ⟨(h.target _ rfl).id, h.authorityDomain, hok.subjectId⟩
  · rintro ⟨hid, hdomain, hsubject⟩
    refine ⟨⟨_, rfl⟩, outcomeOf_known result, ⟨_, rfl, ⟨_, rfl⟩, ?_, ?_, hsubject⟩, ?_, ?_, ?_, hdomain⟩
    · intro s hs
      cases hs
    · intro s hs
      cases hs
    · intro t ht
      obtain rfl := Option.some.inj ht
      exact ⟨targetType_ok, hid⟩
    · intro c hc
      cases hc
    · intro d hd
      cases hd

/-- **When every event of an operation is admissible.** -/
theorem quorumEvents_admissible_iff {σ : Type} (a : API σ) {caller : VerifyAssertionResponse}
    (haal : caller.aal = "AAL3") (porteur : Bool) :
    (∀ raw ∈ quorumEvents a operationId caller result porteur, raw.Admissible) ↔
      BoundedAsciiOk 256 operationId ∧ BoundedAsciiOk 128 a.expectedAuthorityDomain ∧
        BoundedAsciiOk 256 caller.subjectId ∧ BoundedAsciiOk 64 caller.authMethod ∧
        ∀ x ∈ result.distinctSubjects, BoundedAsciiOk 256 x := by
  rw [quorumEvents, List.forall_mem_cons, initiatorEvent_admissible_iff haal, List.forall_mem_map]
  simp only [bearerEvent_admissible_iff]
  constructor
  · rintro ⟨⟨hid, hdomain, hsubject, hmethod⟩, hbearers⟩
    exact ⟨hid, hdomain, hsubject, hmethod, fun x hx => (hbearers x hx).2.2⟩
  · rintro ⟨hid, hdomain, hsubject, hmethod, hbearers⟩
    exact ⟨⟨hid, hdomain, hsubject, hmethod⟩, fun x hx => ⟨hid, hdomain, hbearers x hx⟩⟩

end Events

/-! ## The trace -/

/-- What ends in a sealed field fits there: the operation id, the configured
domain, and what the identity service says of the caller and of the bearers. -/
structure Traceable (a : API Trail) (operationId : String) (assertion : Bytes)
    (body : QuorumRequest) : Prop where
  operationId : BoundedAsciiOk 256 operationId
  domain : BoundedAsciiOk 128 a.expectedAuthorityDomain
  caller : ∀ caller, a.identityClient assertion a.expectedAuthorityDomain = .ok (some caller) →
    BoundedAsciiOk 256 caller.subjectId ∧ BoundedAsciiOk 64 caller.authMethod
  bearers : ∀ x, Attested a.verifier a.expectedAuthorityDomain body.assertions x →
    BoundedAsciiOk 256 x

/-- The events were all accepted, and each left its row. -/
def Traced (events : List RawEvent) (before after : Trail) : Prop :=
  ∃ rows answers, after = ⟨before.table ++ rows, before.answers ++ answers⟩ ∧
    answers.length = events.length ∧ (∀ answer ∈ answers, CallResult.succeeded answer = true) ∧
    List.Forall₂ Persisted events rows

/-- The operation left its trace: the event of its caller, which says whether
the caller was among the bearers, and one of each subject it answers with. -/
def LeavesTrace (a : API Trail) (operationId : String) (assertion : Bytes) (body : QuorumRequest)
    (result : Quorum.Result) (before after : Trail) : Prop :=
  result.distinctSubjects.Nodup ∧
  ∃ caller porteur, a.identityClient assertion a.expectedAuthorityDomain = .ok (some caller) ∧
    (porteur = true ↔
      Attested a.verifier a.expectedAuthorityDomain body.assertions caller.subjectId) ∧
    Traced (quorumEvents a operationId caller result porteur) before after

theorem succeeded_of_admissible {events : List RawEvent} {answers : List CallResult}
    (h : List.Forall₂ (fun raw answer => CallResult.succeeded answer = true ↔ raw.Admissible)
      events answers) (hadmissible : ∀ raw ∈ events, raw.Admissible) :
    ∀ answer ∈ answers, answer.succeeded = true := by
  induction h with
  | nil =>
      intro answer hmem
      cases hmem
  | cons hhead _ ih =>
      intro answer hmem
      rcases List.mem_cons.mp hmem with rfl | hmem
      · exact hhead.mpr (hadmissible _ List.mem_cons_self)
      · exact ih (fun raw hraw => hadmissible raw (List.mem_cons_of_mem _ hraw)) answer hmem

/-- A batch is traced exactly when its events are admissible. -/
theorem traced_iff {P : Primitives} (publicKey : Bytes) {env : Nat → Services} {s : Trail}
    {events : List RawEvent} (h : Available P env s events.length)
    (hshort : ∀ raw ∈ events, raw.Short) :
    Traced events s (s.recordAll P (.ofPublicKey P publicKey) env events) ↔
      ∀ raw ∈ events, raw.Admissible := by
  classical
  obtain ⟨rows, answers, hs, hanswers, hpersisted⟩ := Trail.recordAll_spec publicKey h hshort
  rw [hs]
  constructor
  · rintro ⟨rows', answers', heq, -, -, hforall⟩
    obtain rfl := List.append_cancel_left (Trail.mk.inj heq).1
    have hlength := hpersisted.length_eq.trans hforall.length_eq.symm
    intro raw hraw
    simpa using List.length_filter_eq_length_iff.mp hlength raw hraw
  · intro hadmissible
    have hall : events.filter (fun raw => decide raw.Admissible) = events :=
      List.filter_eq_self.mpr fun raw hraw => decide_eq_true (hadmissible raw hraw)
    refine ⟨rows, answers, rfl, hanswers.length_eq.symm, ?_, ?_⟩
    · exact succeeded_of_admissible hanswers hadmissible
    · convert hpersisted
      exact hall.symm

/-- **A critical operation leaves its trace exactly** when its id, and the
other texts of its events, fit into the sealed fields. -/
theorem quorum_leaves_trace_iff (P : Primitives) (publicKey : Bytes) (env : Nat → Services)
    (a : API Trail) (ha : a.auditClient = Trail.record P (.ofPublicKey P publicKey) env)
    (draw : Draw) (hceiling : ∀ i, draw.ceiling i = false) (operationId : String)
    (assertion : Bytes) (enTeteBrut : String) (body : QuorumRequest) (s : Trail)
    (result : Quorum.Result)
    (hanswer : (a.verifyQuorum draw operationId assertion enTeteBrut (some body) s).1 =
      .quorum result)
    (havailable : Available P env s (1 + result.distinctSubjects.length)) :
    LeavesTrace a operationId assertion body result s
        (a.verifyQuorum draw operationId assertion enTeteBrut (some body) s).2 ↔
      Traceable a operationId assertion body := by
  obtain ⟨caller, porteur, hcaller, haal, hnodup, hsubjects, hporteur, hafter⟩ :=
    verifyQuorum_answered hceiling hanswer
  have hrun : (a.verifyQuorum draw operationId assertion enTeteBrut (some body) s).2 =
      s.recordAll P (.ofPublicKey P publicKey) env
        (quorumEvents a operationId caller result porteur) := by
    rw [hafter, ha]
    rfl
  have hlength : (quorumEvents a operationId caller result porteur).length =
      1 + result.distinctSubjects.length := by
    simp [quorumEvents, Nat.add_comm]
  have htraced := traced_iff publicKey (hlength ▸ havailable)
    (quorumEvents_short a caller porteur)
  rw [quorumEvents_admissible_iff a haal] at htraced
  rw [hrun]
  constructor
  · rintro ⟨-, caller', porteur', hcaller', hporteur', htrace⟩
    obtain rfl := Option.some.inj (Except.ok.inj (hcaller.symm.trans hcaller'))
    obtain rfl : porteur = porteur' := Bool.eq_iff_iff.mpr (hporteur.trans hporteur'.symm)
    obtain ⟨hid, hdomain, hsubject, hmethod, hbearers⟩ := htraced.mp htrace
    refine ⟨hid, hdomain, ?_, ?_⟩
    · intro other hother
      obtain rfl := Option.some.inj (Except.ok.inj (hcaller.symm.trans hother))
      exact ⟨hsubject, hmethod⟩
    · intro x hx
      by_cases hself : x = caller.subjectId
      · rw [hself]
        exact hsubject
      · exact hbearers x ((hsubjects x).mpr ⟨hself, hx⟩)
  · intro h
    obtain ⟨hsubject, hmethod⟩ := h.caller caller hcaller
    refine ⟨hnodup, caller, porteur, hcaller, hporteur, htraced.mpr ?_⟩
    exact ⟨h.operationId, h.domain, hsubject, hmethod,
      fun x hx => h.bearers x ((hsubjects x).mp hx).2⟩

/-! ### Two operation ids -/

/-- The first three calls. -/
def sampleCalls (n : Nat) : Services :=
  sampleServices (if n = 0 then "01890000-0000-7000-8000-000000000000"
    else if n = 1 then "01890000-0000-7000-8000-000000000001"
    else "01890000-0000-7000-8000-000000000002")

def auditedAPI : API Trail where
  verifier := answering sampleVerifier
  identityClient := answering sampleVerifier
  auditClient := Trail.record Primitives.standard (.ofPublicKey .standard Crypto.sampleKey) sampleCalls
  expectedAuthorityDomain := "identity-provider"

/-- The bearers `sub-1` and `sub-2`, and the caller again. -/
def sampleBody : QuorumRequest := ⟨[[2], [1], [3]], "identity-provider", 2⟩

def untouched : Trail := ⟨[], []⟩

theorem sampleCalls_available : Available Primitives.standard sampleCalls untouched 3 := by
  have hdistinct : ∀ k < 3, ∀ j < k, (sampleCalls j).newV7 ≠ (sampleCalls k).newV7 := by decide
  refine ⟨fun _ => trivial, fun r hr => absurd hr List.not_mem_nil, by decide, ?_, ?_, ?_, ?_, ?_⟩
  · decide
  · intro k _ r hr
    cases hr
  · intro j k hjk hk
    change (sampleCalls (0 + j)).newV7 ≠ (sampleCalls (0 + k)).newV7
    rw [Nat.zero_add, Nat.zero_add]
    exact hdistinct k hk j hjk
  · intro k _
    change (0 : Int) ≤ 1777000000 ∧ (1777000000 : Int) < 253402300800
    decide
  · intro k _ digest
    exact ⟨_, rfl⟩

theorem sampleOperation_traceable : Traceable auditedAPI "op-1" [1] sampleBody := by
  refine ⟨by decide, by decide, ?_, ?_⟩
  · intro caller hcaller
    obtain rfl := Option.some.inj (Except.ok.inj hcaller)
    exact ⟨by decide, by decide⟩
  · rintro x ⟨y, hy, resp, hresp, -, rfl⟩
    obtain rfl := Option.some.inj (Except.ok.inj hresp)
    have hall : ∀ y ∈ sampleBody.assertions,
        BoundedAsciiOk 256 (sampleVerifier y "identity-provider").subjectId := by decide
    exact hall y hy

theorem sampleOperation_traced :
    LeavesTrace auditedAPI "op-1" [1] sampleBody ⟨true, ["sub-2", "sub-1"]⟩ untouched
      (auditedAPI.verifyQuorum sampleDraw "op-1" [1] "AQ==" (some sampleBody) untouched).2 := by
  have hanswer : (auditedAPI.verifyQuorum sampleDraw "op-1" [1] "AQ==" (some sampleBody)
      untouched).1 = .quorum ⟨true, ["sub-2", "sub-1"]⟩ := by
    decide +kernel
  exact (quorum_leaves_trace_iff Primitives.standard Crypto.sampleKey sampleCalls auditedAPI rfl
    sampleDraw (fun _ => rfl) "op-1" [1] "AQ==" sampleBody untouched _ hanswer
    sampleCalls_available).mpr sampleOperation_traceable

/-- The operation `op"1` is answered 200 and leaves nothing behind. -/
theorem quotedOperation_untraced :
    (auditedAPI.verifyQuorum sampleDraw "op\"1" [1] "AQ==" (some sampleBody) untouched).1 =
      .quorum ⟨true, ["sub-2", "sub-1"]⟩ ∧
    (auditedAPI.verifyQuorum sampleDraw "op\"1" [1] "AQ==" (some sampleBody) untouched).2.table =
      [] ∧
    ¬ LeavesTrace auditedAPI "op\"1" [1] sampleBody ⟨true, ["sub-2", "sub-1"]⟩ untouched
      (auditedAPI.verifyQuorum sampleDraw "op\"1" [1] "AQ==" (some sampleBody) untouched).2 := by
  have hnone : (auditedAPI.verifyQuorum sampleDraw "op\"1" [1] "AQ==" (some sampleBody)
      untouched).2.table = [] := by
    rw [← List.length_eq_zero_iff]
    decide +kernel
  refine ⟨by decide +kernel, hnone, ?_⟩
  rintro ⟨-, caller, porteur, -, -, rows, answers, hafter, -, -, hrows⟩
  have htable := congrArg Trail.table hafter
  rw [hnone] at htable
  have hempty : rows = [] := htable.symm
  rw [hempty] at hrows
  cases hrows

end ZeroSecret.Admin
