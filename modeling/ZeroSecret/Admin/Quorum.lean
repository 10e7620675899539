import ZeroSecret.Admin.Handler

/-!
# When a quorum is reached

The purpose of the component is a statement about sets: the bearers of a
critical operation are the subjects of the valid assertions of the body, less
the caller, and there are at least `threshold` of them. The handler computes
it through a map, an unspecified iteration order and a second count; this
module says that it computes exactly that, behind which gates.
-/

namespace ZeroSecret.Admin

open Access (VerifyAssertionResponse)

/-- A verifier that always answers, and answers the same. -/
abbrev Verifier : Type := Bytes → String → VerifyAssertionResponse

def answering (v : Verifier) : IdentityClient := fun assertion domain =>
  .ok (some (v assertion domain))

/-- The subjects of the valid assertions. -/
def bearers (v : Verifier) (domain : String) (assertions : List Bytes) : Finset String :=
  ((assertions.filter fun x => (v x domain).valid).map fun x => (v x domain).subjectId).toFinset

/-- The bearers that are not the caller. -/
def independentBearers (v : Verifier) (domain caller : String) (assertions : List Bytes) :
    Finset String :=
  (bearers v domain assertions).erase caller

/-- The header is the canonical text of a non-empty assertion, and the
assertion names a complete identity at the level an initiator needs. -/
structure Authenticated (v : Verifier) (domain : String) (header : List String)
    (caller : VerifyAssertionResponse) : Prop where
  header : ∃ assertion, assertion ≠ [] ∧ header = [Base64.encode assertion] ∧
    v assertion domain = caller
  valid : caller.valid = true
  aal : caller.aal = "AAL3"
  subjectId : caller.subjectId ≠ ""
  authMethod : caller.authMethod ≠ ""

/-! ## The quorum module -/

theorem mem_bearers {v : Verifier} {domain x : String} {assertions : List Bytes} :
    x ∈ bearers v domain assertions ↔
      ∃ y ∈ assertions, (v y domain).valid = true ∧ (v y domain).subjectId = x := by
  simp [bearers, and_assoc]

/-- The bearers depend on which assertions there are, not on their order or
number. -/
theorem bearers_congr {v : Verifier} {domain : String} {assertions assertions' : List Bytes}
    (h : ∀ x, x ∈ assertions' ↔ x ∈ assertions) :
    bearers v domain assertions' = bearers v domain assertions := by
  ext x
  rw [mem_bearers, mem_bearers]
  constructor
  · rintro ⟨y, hy, hv⟩
    exact ⟨y, (h y).mp hy, hv⟩
  · rintro ⟨y, hy, hv⟩
    exact ⟨y, (h y).mpr hy, hv⟩

/-! ## The loop of the quorum module -/

/-- The subjects some valid assertion names. -/
def Attested (client : IdentityClient) (domain : String) (assertions : List Bytes) (x : String) :
    Prop :=
  ∃ y ∈ assertions, ∃ resp, client y domain = .ok (some resp) ∧ resp.valid = true ∧
    resp.subjectId = x

theorem attested_cons {client : IdentityClient} {domain x : String} {assertion : Bytes}
    {assertions : List Bytes} {resp : VerifyAssertionResponse}
    (h : client assertion domain = .ok (some resp)) :
    Attested client domain (assertion :: assertions) x ↔
      (resp.valid = true ∧ resp.subjectId = x) ∨ Attested client domain assertions x := by
  constructor
  · rintro ⟨y, hy, resp', hresp, hvalid⟩
    rcases List.mem_cons.mp hy with rfl | hy
    · obtain rfl := Option.some.inj (Except.ok.inj (h.symm.trans hresp))
      exact Or.inl hvalid
    · exact Or.inr ⟨y, hy, resp', hresp, hvalid⟩
  · rintro (hvalid | ⟨y, hy, hrest⟩)
    · exact ⟨assertion, List.mem_cons_self, resp, h, hvalid⟩
    · exact ⟨y, List.mem_cons_of_mem _ hy, hrest⟩

/-- **A loop that comes to its end has kept the attested subjects**, each
once. -/
theorem collect_eq_ok {client : IdentityClient} {domain : String} {assertions : List Bytes}
    {seen out : List String} (hseen : seen.Nodup)
    (h : Quorum.collect client domain assertions seen = .ok out) :
    out.Nodup ∧ ∀ x, x ∈ out ↔ x ∈ seen ∨ Attested client domain assertions x := by
  induction assertions generalizing seen with
  | nil =>
      obtain rfl := Except.ok.inj h
      refine ⟨hseen, fun x => ⟨Or.inl, ?_⟩⟩
      rintro (hx | ⟨y, hy, -⟩)
      · exact hx
      · cases hy
  | cons assertion assertions ih =>
      rw [Quorum.collect] at h
      match hresp : client assertion domain, h with
      | .ok (some resp), h =>
      obtain ⟨hnodup, hmem⟩ := ih (by split; exacts [hseen.insert, hseen]) h
      refine ⟨hnodup, fun x => ?_⟩
      rw [hmem, attested_cons hresp]
      by_cases hvalid : resp.valid = true
      · rw [if_pos hvalid, List.mem_insert_iff]
        simp only [hvalid, true_and, eq_comm, or_assoc, or_left_comm]
      · simp only [hvalid, Bool.false_eq_true, if_false, false_and, false_or]

theorem attested_answering {v : Verifier} {domain x : String} {assertions : List Bytes} :
    Attested (answering v) domain assertions x ↔ x ∈ bearers v domain assertions := by
  rw [mem_bearers]
  constructor
  · rintro ⟨y, hy, resp, hresp, hvalid⟩
    obtain rfl := Option.some.inj (Except.ok.inj hresp)
    exact ⟨y, hy, hvalid⟩
  · rintro ⟨y, hy, hvalid⟩
    exact ⟨y, hy, v y domain, rfl, hvalid⟩

/-- A verifier that always answers lets the loop come to its end. -/
theorem exists_collect_answering (v : Verifier) (domain : String) (assertions : List Bytes)
    (seen : List String) :
    ∃ out, Quorum.collect (answering v) domain assertions seen = .ok out := by
  induction assertions generalizing seen with
  | nil => exact ⟨seen, rfl⟩
  | cons assertion assertions ih => exact ih _

/-- **The loop keeps a set**: no key twice, and the keys are those it started
with and the subjects of the valid assertions it has passed. -/
theorem collect_answering (v : Verifier) (domain : String) (assertions : List Bytes)
    {seen : List String} (hseen : seen.Nodup) :
    ∃ out, Quorum.collect (answering v) domain assertions seen = .ok out ∧ out.Nodup ∧
      ∀ x, x ∈ out ↔ x ∈ seen ∨ x ∈ bearers v domain assertions := by
  obtain ⟨out, hout⟩ := exists_collect_answering v domain assertions seen
  obtain ⟨hnodup, hmem⟩ := collect_eq_ok hseen hout
  refine ⟨out, hout, hnodup, fun x => ?_⟩
  rw [hmem, attested_answering]

/-- A list that enumerates the independent bearers, each once. -/
def Enumerates (subjects : List String) (set : Finset String) : Prop :=
  subjects.Nodup ∧ ∀ x, x ∈ subjects ↔ x ∈ set

theorem Enumerates.length_eq {subjects : List String} {set : Finset String}
    (h : Enumerates subjects set) : subjects.length = set.card := by
  have hset : subjects.toFinset = set := by
    ext x
    rw [List.mem_toFinset]
    exact h.2 x
  rw [← hset, List.toFinset_card_of_nodup h.1]

/-! ## The handler -/

section Handler

variable {σ : Type} {a : API σ} {v : Verifier}

/-- **Behind the gates the answer is the count of the independent
bearers.** -/
theorem evaluate_answers (hv : a.verifier = answering v) {body : QuorumRequest}
    (hlen : body.assertions.length ≤ maxAssertions)
    (hdomain : body.expectedAuthorityDomain = a.expectedAuthorityDomain)
    (hthreshold : 2 ≤ body.threshold) (draw : Draw) (operationId : String)
    (caller : VerifyAssertionResponse) (s : σ) :
    ∃ subjects, Enumerates subjects (independentBearers v a.expectedAuthorityDomain
        caller.subjectId body.assertions) ∧
      (a.evaluate draw operationId caller body s).1 =
        .quorum ⟨decide (body.threshold ≤ subjects.length), subjects⟩ := by
  obtain ⟨seen, hseen, hnodup, hmem⟩ :=
    collect_answering v a.expectedAuthorityDomain body.assertions List.nodup_nil
  have hperm := draw.order.property seen
  have hquorum : Quorum.verifyQuorum a.verifier draw.order body.expectedAuthorityDomain
      body.assertions body.threshold =
      .ok ⟨decide (body.threshold ≤ (draw.order.val seen).length), draw.order.val seen⟩ := by
    unfold Quorum.verifyQuorum
    rw [if_neg (show ¬ body.threshold < Quorum.minimumThreshold from Int.not_lt.mpr hthreshold),
      hv, hdomain, hseen]
  refine ⟨(draw.order.val seen).filter fun x => x ≠ caller.subjectId,
    ⟨(hperm.nodup_iff.mpr hnodup).filter _, fun x => ?_⟩, ?_⟩
  · rw [List.mem_filter, hperm.mem_iff, hmem, independentBearers, Finset.mem_erase]
    simp [and_comm]
  · unfold API.evaluate
    rw [if_neg (Nat.not_lt.mpr hlen), if_neg (not_not_intro hdomain),
      if_neg (show ¬ body.threshold < Quorum.minimumThreshold from Int.not_lt.mpr hthreshold),
      hquorum]
    rfl

/-- A 200 has passed the gates. -/
theorem evaluate_gates {draw : Draw} {operationId : String} {caller : VerifyAssertionResponse}
    {body : QuorumRequest} {s : σ} {result : Quorum.Result}
    (h : (a.evaluate draw operationId caller body s).1 = .quorum result) :
    body.assertions.length ≤ maxAssertions ∧
      body.expectedAuthorityDomain = a.expectedAuthorityDomain ∧ 2 ≤ body.threshold := by
  unfold API.evaluate at h
  by_cases hlen : maxAssertions < body.assertions.length
  · rw [if_pos hlen] at h
    cases h
  · rw [if_neg hlen] at h
    by_cases hdomain : body.expectedAuthorityDomain = a.expectedAuthorityDomain
    · rw [if_neg (not_not_intro hdomain)] at h
      by_cases hthreshold : body.threshold < Quorum.minimumThreshold
      · rw [if_pos hthreshold] at h
        cases h
      · exact ⟨Nat.le_of_not_lt hlen, hdomain, Int.not_lt.mp hthreshold⟩
    · rw [if_pos hdomain] at h
      cases h

/-- A threshold below two is a 400, whichever of the gates it stops at. -/
theorem evaluate_low_threshold (a : API σ) {body : QuorumRequest} (hlow : body.threshold < 2)
    (draw : Draw) (operationId : String) (caller : VerifyAssertionResponse) (s : σ) :
    ∃ reason, (a.evaluate draw operationId caller body s).1 = .error 400 reason := by
  unfold API.evaluate
  by_cases hlen : maxAssertions < body.assertions.length
  · rw [if_pos hlen]
    exact ⟨_, rfl⟩
  · by_cases hdomain : body.expectedAuthorityDomain = a.expectedAuthorityDomain
    · rw [if_neg hlen, if_neg (not_not_intro hdomain),
        if_pos (show body.threshold < Quorum.minimumThreshold from hlow)]
      exact ⟨_, rfl⟩
    · rw [if_neg hlen, if_pos hdomain]
      exact ⟨_, rfl⟩

/-- **Authentication**: `verifyCaller` lets a caller through exactly when the
header is the canonical text of an acceptable assertion. -/
theorem verifyCaller_ok_iff (hi : a.identityClient = answering v) {assertion : Bytes}
    {value : String} {caller : VerifyAssertionResponse} :
    a.verifyCaller assertion value = .ok caller ↔
      assertion ≠ [] ∧ value = Base64.encode assertion ∧
        v assertion a.expectedAuthorityDomain = caller ∧ caller.valid = true ∧
        caller.aal = "AAL3" ∧ caller.subjectId ≠ "" ∧ caller.authMethod ≠ "" := by
  unfold API.verifyCaller
  by_cases hempty : assertion.length = 0
  · rw [if_pos hempty]
    constructor
    · intro h
      cases h
    · rintro ⟨hne, -⟩
      exact absurd (List.length_eq_zero_iff.mp hempty) hne
  · have hne : assertion ≠ [] := fun h => hempty (List.length_eq_zero_iff.mpr h)
    rw [if_neg hempty]
    by_cases hcanonical : Base64.encode assertion = value
    · rw [if_neg (not_not_intro hcanonical), hi]
      unfold answering
      by_cases hvalid : (v assertion a.expectedAuthorityDomain).valid = true
      · by_cases haal : (v assertion a.expectedAuthorityDomain).aal = aalRequisPourInitier
        · by_cases hcomplete : (v assertion a.expectedAuthorityDomain).subjectId = "" ∨
              (v assertion a.expectedAuthorityDomain).authMethod = ""
          · simp only [if_neg (not_not_intro hvalid), if_neg (not_not_intro haal), if_pos hcomplete]
            constructor
            · intro h
              cases h
            · rintro ⟨-, -, rfl, -, -, hs, hm⟩
              exact absurd hcomplete (not_or.mpr ⟨hs, hm⟩)
          · simp only [if_neg (not_not_intro hvalid), if_neg (not_not_intro haal), if_neg hcomplete]
            obtain ⟨hs, hm⟩ := not_or.mp hcomplete
            constructor
            · intro h
              obtain rfl := Except.ok.inj h
              exact ⟨hne, hcanonical.symm, rfl, hvalid, haal, hs, hm⟩
            · rintro ⟨-, -, rfl, -⟩
              rfl
        · simp only [if_neg (not_not_intro hvalid), if_pos haal]
          constructor
          · intro h
            cases h
          · rintro ⟨-, -, rfl, -, h, -⟩
            exact absurd h haal
      · simp only [if_pos hvalid]
        constructor
        · intro h
          cases h
        · rintro ⟨-, -, rfl, h, -⟩
          exact absurd h hvalid
    · rw [if_pos hcanonical]
      constructor
      · intro h
        cases h
      · rintro ⟨-, h, -⟩
        exact absurd h.symm hcanonical

variable {bind : String → Option Bytes}

/-- An authenticated request goes on to the evaluation. -/
theorem serve_authenticated (hi : a.identityClient = answering v)
    (hbind : ∀ b, b ≠ [] → bind (Base64.encode b) = some b) {header : List String}
    {caller : VerifyAssertionResponse}
    (h : Authenticated v a.expectedAuthorityDomain header caller) (draw : Draw)
    (operationId : String) (body : QuorumRequest) (s : σ) :
    a.serve bind draw operationId header (some body) s =
      a.evaluate draw operationId caller body s := by
  obtain ⟨assertion, hne, rfl, hcaller⟩ := h.header
  have hok : a.verifyCaller assertion (Base64.encode assertion) = .ok caller :=
    (verifyCaller_ok_iff hi).mpr ⟨hne, rfl, hcaller, h.valid, h.aal, h.subjectId, h.authMethod⟩
  unfold API.serve
  simp only [hbind assertion hne, API.verifyQuorum, hok]

/-- A request that is not authenticated ends in the refusal of the caller. -/
theorem serve_refused (bind : String → Option Bytes) (hi : a.identityClient = answering v)
    {header : List String}
    (h : ¬ ∃ caller, Authenticated v a.expectedAuthorityDomain header caller) (draw : Draw)
    (operationId : String) (body : QuorumRequest) (s : σ) :
    ∃ status reason, a.serve bind draw operationId header (some body) s =
      (.error status reason, s) ∧ (status = 401 ∨ status = 403 ∨ status = 502) := by
  unfold API.serve
  match header, h with
  | [], _ => exact ⟨401, _, rfl, Or.inl rfl⟩
  | _ :: _ :: _, _ => exact ⟨401, _, rfl, Or.inl rfl⟩
  | [value], h =>
      cases hb : bind value with
      | none =>
          exact ⟨401, "assertion_de_lappelant_malformee", by simp only [hb], Or.inl rfl⟩
      | some assertion =>
          cases hc : a.verifyCaller assertion value with
          | ok caller =>
              obtain ⟨hne, hvalue, hcaller, h1, h2, h3, h4⟩ := (verifyCaller_ok_iff hi).mp hc
              exact absurd ⟨caller, ⟨assertion, hne, by rw [hvalue], hcaller⟩, h1, h2, h3, h4⟩ h
          | error refus =>
              refine ⟨refus.status, refus.reason, by simp only [hb, API.verifyQuorum, hc], ?_⟩
              unfold API.verifyCaller at hc
              rw [hi] at hc
              unfold answering at hc
              split at hc
              · obtain rfl := Except.error.inj hc
                exact Or.inl rfl
              · split at hc
                · obtain rfl := Except.error.inj hc
                  exact Or.inl rfl
                · dsimp only at hc
                  split at hc
                  · obtain rfl := Except.error.inj hc
                    exact Or.inl rfl
                  · split at hc
                    · obtain rfl := Except.error.inj hc
                      exact Or.inr (Or.inl rfl)
                    · split at hc
                      · obtain rfl := Except.error.inj hc
                        exact Or.inr (Or.inr rfl)
                      · cases hc

/-- **A 200 comes from an authenticated caller behind the gates**, and shows
the independent bearers. -/
theorem serve_quorum_inv (hi : a.identityClient = answering v) (hv : a.verifier = answering v)
    (hbind : ∀ b, b ≠ [] → bind (Base64.encode b) = some b) {draw : Draw} {operationId : String}
    {header : List String} {body : QuorumRequest} {s : σ} {result : Quorum.Result}
    (h : (a.serve bind draw operationId header (some body) s).1 = .quorum result) :
    ∃ caller, Authenticated v a.expectedAuthorityDomain header caller ∧
      body.assertions.length ≤ maxAssertions ∧
      body.expectedAuthorityDomain = a.expectedAuthorityDomain ∧ 2 ≤ body.threshold ∧
      Enumerates result.distinctSubjects (independentBearers v a.expectedAuthorityDomain
        caller.subjectId body.assertions) ∧
      result.reached = decide (body.threshold ≤ result.distinctSubjects.length) := by
  by_cases hauth : ∃ caller, Authenticated v a.expectedAuthorityDomain header caller
  · obtain ⟨caller, hcaller⟩ := hauth
    rw [serve_authenticated hi hbind hcaller] at h
    obtain ⟨hlen, hdomain, hthreshold⟩ := evaluate_gates h
    obtain ⟨subjects, henum, hans⟩ :=
      evaluate_answers hv hlen hdomain hthreshold draw operationId caller s
    rw [hans] at h
    obtain rfl := HttpResponse.quorum.inj h
    exact ⟨caller, hcaller, hlen, hdomain, hthreshold, henum, rfl⟩
  · obtain ⟨status, reason, herr, -⟩ := serve_refused bind hi hauth draw operationId body s
    rw [herr] at h
    cases h

end Handler

/-- The same assertions in another order or number, within the limit. -/
structure Reshuffled (body body' : QuorumRequest) : Prop where
  assertions : ∀ x, x ∈ body'.assertions ↔ x ∈ body.assertions
  limit : body'.assertions.length ≤ maxAssertions
  domain : body'.expectedAuthorityDomain = body.expectedAuthorityDomain
  threshold : body'.threshold = body.threshold

/-- **The quorum of a critical operation.** For a verifier that answers, and a
decoder that reads canonical texts of something back: a request is answered 200
with a reached quorum exactly when its caller is authenticated and enough
independent bearers stand behind it; every 200 lists the independent bearers
once each, without the caller; reshuffling or repeating assertions changes
neither the list as a set nor the answer; and a threshold below two is refused,
with 400 where the caller is authenticated and by the gate of the caller where
not, never by a panic. -/
theorem serve_quorum_iff {σ : Type} (a : API σ) (v : Verifier) (bind : String → Option Bytes)
    (hbind : ∀ b, b ≠ [] → bind (Base64.encode b) = some b) (hi : a.identityClient = answering v)
    (hv : a.verifier = answering v) (draw : Draw) (operationId : String) (header : List String)
    (body : QuorumRequest) (s : σ) :
    ((∃ subjects, (a.serve bind draw operationId header (some body) s).1 =
        .quorum ⟨true, subjects⟩) ↔
      ∃ caller, Authenticated v a.expectedAuthorityDomain header caller ∧
        body.assertions.length ≤ 64 ∧
        body.expectedAuthorityDomain = a.expectedAuthorityDomain ∧ 2 ≤ body.threshold ∧
        body.threshold ≤ (independentBearers v a.expectedAuthorityDomain caller.subjectId
          body.assertions).card) ∧
    (∀ result, (a.serve bind draw operationId header (some body) s).1 = .quorum result →
      result.distinctSubjects.Nodup ∧
      (∃ caller, Authenticated v a.expectedAuthorityDomain header caller ∧
        caller.subjectId ∉ result.distinctSubjects) ∧
      ∀ body' draw' s', Reshuffled body body' →
        ∃ result', (a.serve bind draw' operationId header (some body') s').1 = .quorum result' ∧
          result'.reached = result.reached ∧
          ∀ x, x ∈ result'.distinctSubjects ↔ x ∈ result.distinctSubjects) ∧
    (body.threshold < 2 → ∃ status reason,
      (a.serve bind draw operationId header (some body) s).1 = .error status reason ∧
      ((∃ caller, Authenticated v a.expectedAuthorityDomain header caller) → status = 400) ∧
      ((¬ ∃ caller, Authenticated v a.expectedAuthorityDomain header caller) →
        status = 401 ∨ status = 403 ∨ status = 502)) := by
  refine ⟨?_, ?_, ?_⟩
  · constructor
    · rintro ⟨subjects, h⟩
      obtain ⟨caller, hcaller, hlen, hdomain, hthreshold, henum, hreached⟩ :=
        serve_quorum_inv hi hv hbind h
      refine ⟨caller, hcaller, hlen, hdomain, hthreshold, ?_⟩
      rw [← henum.length_eq]
      exact of_decide_eq_true hreached.symm
    · rintro ⟨caller, hcaller, hlen, hdomain, hthreshold, hcount⟩
      obtain ⟨subjects, henum, hans⟩ :=
        evaluate_answers hv hlen hdomain hthreshold draw operationId caller s
      refine ⟨subjects, ?_⟩
      rw [serve_authenticated hi hbind hcaller, hans, henum.length_eq, decide_eq_true hcount]
  · intro result h
    obtain ⟨caller, hcaller, hlen, hdomain, hthreshold, henum, hreached⟩ :=
      serve_quorum_inv hi hv hbind h
    have hnot : caller.subjectId ∉ result.distinctSubjects := by
      rw [henum.2, independentBearers]
      exact Finset.notMem_erase _ _
    refine ⟨henum.1, ⟨caller, hcaller, hnot⟩, ?_⟩
    intro body' draw' s' hsame
    have hset : independentBearers v a.expectedAuthorityDomain caller.subjectId body'.assertions =
        independentBearers v a.expectedAuthorityDomain caller.subjectId body.assertions := by
      rw [independentBearers, bearers_congr hsame.assertions]
      rfl
    obtain ⟨subjects', henum', hans'⟩ := evaluate_answers hv hsame.limit
      (hsame.domain.trans hdomain) (by rw [hsame.threshold]; exact hthreshold) draw' operationId
      caller s'
    refine ⟨_, by rw [serve_authenticated hi hbind hcaller]; exact hans', ?_, fun x => ?_⟩
    · rw [hreached, henum'.length_eq, henum.length_eq, hset, hsame.threshold]
    · rw [henum.2, ← hset]
      exact henum'.2 x
  · intro hlow
    by_cases hauth : ∃ caller, Authenticated v a.expectedAuthorityDomain header caller
    · obtain ⟨caller, hcaller⟩ := hauth
      obtain ⟨reason, hans⟩ := evaluate_low_threshold a hlow draw operationId caller s
      rw [serve_authenticated hi hbind hcaller]
      exact ⟨400, reason, hans, fun _ => rfl, fun hnone => absurd ⟨caller, hcaller⟩ hnone⟩
    · obtain ⟨status, reason, herr, hstatus⟩ :=
        serve_refused bind hi hauth draw operationId body s
      exact ⟨status, reason, by rw [herr], fun h => absurd h hauth, fun _ => hstatus⟩

/-! ### Three bearers -/

/-- A verifier that knows the assertions of three people. -/
def sampleVerifier : Verifier := fun assertion _ =>
  match assertion with
  | [1] => ⟨true, "", "sub-admin", "AAL3", "webauthn/device-bound"⟩
  | [2] => ⟨true, "", "sub-1", "AAL2", "webauthn/device-bound"⟩
  | [3] => ⟨true, "", "sub-2", "AAL2", "webauthn/device-bound"⟩
  | _ => ⟨false, "assertion_inconnue", "", "", ""⟩

def sampleAPI : API Unit where
  verifier := answering sampleVerifier
  identityClient := answering sampleVerifier
  auditClient := fun _ s => (.error "", s)
  expectedAuthorityDomain := "identity-provider"

def sampleDraw : Draw := ⟨⟨id, fun ids => List.Perm.refl ids⟩, fun _ => false⟩

/-- An authenticated caller, two independent bearers, one of them twice, and
the caller again. -/
theorem serve_quorum_sample : ∃ subjects, (sampleAPI.serve Base64.decode sampleDraw "op-1" ["AQ=="]
    (some ⟨[[2], [1], [3], [2]], "identity-provider", 2⟩) ()).1 = .quorum ⟨true, subjects⟩ := by
  refine (serve_quorum_iff sampleAPI sampleVerifier Base64.decode (fun b _ => Base64.decode_encode b) rfl rfl
    sampleDraw "op-1" ["AQ=="] ⟨[[2], [1], [3], [2]], "identity-provider", 2⟩ ()).1.mpr ?_
  refine ⟨sampleVerifier [1] "identity-provider", ?_, by decide, rfl, by decide, by decide⟩
  exact ⟨⟨[1], by decide, by decide, rfl⟩, rfl, rfl, by decide, by decide⟩

/-- A threshold of one without an assertion: the caller is refused first. -/
theorem low_threshold_unauthenticated :
    (sampleAPI.serve Base64.decode sampleDraw "op-1" []
      (some ⟨[[2], [3]], "identity-provider", 1⟩) ()).1 =
        .error 401 "assertion_de_lappelant_absente" ∧
    ¬ ∃ reason, (sampleAPI.serve Base64.decode sampleDraw "op-1" []
      (some ⟨[[2], [3]], "identity-provider", 1⟩) ()).1 = .error 400 reason := by
  refine ⟨rfl, ?_⟩
  rintro ⟨reason, h⟩
  cases h

end ZeroSecret.Admin
