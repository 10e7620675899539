import ZeroSecret.Base.KeyedLog
import ZeroSecret.Issuance.Issuer

/-!
# A decision is issued on at most once

Any number of `Emit` calls share one in-memory store, in any interleaving of
their steps. The state keeps a log of who did what; each call's own part of it
is one of a few histories (`Legal`), and since only the replay store hands out
the right to go on, a decision hash has one call that may invoke OpenBao.
-/

namespace ZeroSecret.Issuance

open Policy Interleave

/-! ## The shared state -/

/-- What a call did. -/
inductive Act where
  | reported (decision : DecisionResponse) (answer : Except String VerifyDecisionResponse)
  | consumed (decisionHash : Bytes)
  | replayed (decisionHash : Bytes)
  | invoked (path : String) (ttlSeconds : Int64)

/-- The map of the store, and the log. -/
structure IssuerState (Caller : Type) where
  consumed : List Bytes
  log : List (Caller × Act)

variable {Caller : Type}

def IssuerState.record (s : IssuerState Caller) (i : Caller) (a : Act) : IssuerState Caller :=
  { s with log := s.log ++ [(i, a)] }

def markAct (alreadyConsumed : Bool) (decisionHash : Bytes) : Act :=
  if alreadyConsumed then .replayed decisionHash else .consumed decisionHash

/-- The verification service, the generator and OpenBao answer anything, also
an error; a call that is never picked again has not completed. -/
def issuerWorld (Caller : Type) : World Caller IssuerOp IssuerResp where
  State := IssuerState Caller
  init := ⟨[], []⟩
  exec i op s r u :=
    match op, r with
    | .verifyDecision decision, r => u = s.record i (.reported decision r)
    | .markConsumed decisionHash, r =>
        let marked := InMemoryConsumedDecisionStore.markConsumed s.consumed decisionHash
        r = .ok marked.1 ∧
          u = ⟨marked.2, s.log ++ [(i, markAct marked.1 decisionHash)]⟩
    | .newV7, _ => u = s
    | .issueLease path ttlSeconds, _ => u = s.record i (.invoked path ttlSeconds)

/-! ## Histories of one call -/

/-- A decision the order carries, reported valid, that grants. -/
structure Granted (order : EmissionOrder) (d : DecisionResponse) (resp : VerifyDecisionResponse) :
    Prop where
  decision_eq : order.decision = some d
  valid : resp.valid = true
  allow : d.effect = effectAllow

/-- What one call may have done so far. -/
inductive Legal (order : EmissionOrder) : List Act → Prop
  | start : Legal order []
  | reported {d : DecisionResponse} (hd : order.decision = some d)
      (answer : Except String VerifyDecisionResponse) : Legal order [.reported d answer]
  | replayed {d : DecisionResponse} {resp : VerifyDecisionResponse} (g : Granted order d resp) :
      Legal order [.reported d (.ok resp), .replayed d.decisionHash]
  | consumed {d : DecisionResponse} {resp : VerifyDecisionResponse} (g : Granted order d resp) :
      Legal order [.reported d (.ok resp), .consumed d.decisionHash]
  | invoked {d : DecisionResponse} {resp : VerifyDecisionResponse} (g : Granted order d resp)
      (path : String) (ttlSeconds : Int64) :
      Legal order [.reported d (.ok resp), .consumed d.decisionHash, .invoked path ttlSeconds]

/-- The right to go on was obtained for the decision the order carries. -/
theorem legal_consumed {order : EmissionOrder} {acts : List Act} {h : Bytes}
    (hl : Legal order acts) (hm : Act.consumed h ∈ acts) :
    ∃ d resp, Granted order d resp ∧ d.decisionHash = h ∧ Act.reported d (.ok resp) ∈ acts := by
  cases hl with
  | start => cases hm
  | reported hd answer => simp at hm
  | replayed g => simp at hm
  | @consumed d resp g =>
      have hh : h = d.decisionHash := by simpa using hm
      exact ⟨d, resp, g, hh.symm, List.mem_cons_self⟩
  | @invoked d resp g path ttl =>
      have hh : h = d.decisionHash := by simpa using hm
      exact ⟨d, resp, g, hh.symm, List.mem_cons_self⟩

/-- OpenBao is invoked after that right was obtained, and once. -/
theorem legal_invoked {order : EmissionOrder} {acts : List Act} {path : String} {ttl : Int64}
    (hl : Legal order acts) (hm : Act.invoked path ttl ∈ acts) :
    ∃ d resp, Granted order d resp ∧ Act.reported d (.ok resp) ∈ acts ∧
      Act.consumed d.decisionHash ∈ acts := by
  cases hl with
  | start => cases hm
  | reported hd answer => simp at hm
  | replayed g => simp at hm
  | consumed g => simp at hm
  | invoked g path ttl => exact ⟨_, _, g, by simp, by simp⟩

def Act.isInvoked : Act → Bool
  | .invoked _ _ => true
  | _ => false

theorem legal_invoked_once {order : EmissionOrder} {acts : List Act} (hl : Legal order acts) :
    (acts.filter Act.isInvoked).length ≤ 1 := by
  cases hl <;> simp [List.filter, Act.isInvoked]

/-! ## The invariant -/

variable [DecidableEq Caller]

/-- What caller `i` did. -/
def IssuerState.own (s : IssuerState Caller) (i : Caller) : List Act :=
  (KeyedLog.ofKey Prod.fst s.log i).map Prod.snd

theorem mem_own {s : IssuerState Caller} {i : Caller} {a : Act} :
    a ∈ s.own i ↔ (i, a) ∈ s.log := by
  simp [IssuerState.own, KeyedLog.ofKey]

theorem own_append_self {s : IssuerState Caller} {consumed : List Bytes} {i : Caller} {a : Act} :
    IssuerState.own ⟨consumed, s.log ++ [(i, a)]⟩ i = s.own i ++ [a] := by
  simp [IssuerState.own, KeyedLog.ofKey]

theorem own_append_other {s : IssuerState Caller} {consumed : List Bytes} {i j : Caller} {a : Act}
    (h : i ≠ j) : IssuerState.own ⟨consumed, s.log ++ [(i, a)]⟩ j = s.own j := by
  simp [IssuerState.own, KeyedLog.ofKey, h]

structure IssuerInv (orders : Caller → EmissionOrder) (s : IssuerState Caller) : Prop where
  legal : ∀ i, Legal (orders i) (s.own i)
  store : ∀ h, h ∈ s.consumed ↔ ∃ i, (i, Act.consumed h) ∈ s.log
  once : ∀ i j h, (i, Act.consumed h) ∈ s.log → (j, Act.consumed h) ∈ s.log → i = j
  replay : ∀ i h, (i, Act.replayed h) ∈ s.log → ∃ j, j ≠ i ∧ (j, Act.consumed h) ∈ s.log

/-- The others only add acts of their own. -/
def OthersActed (i : Caller) (s t : IssuerState Caller) : Prop :=
  ∃ acts, t.log = s.log ++ acts ∧ ∀ e ∈ acts, e.1 ≠ i

theorem own_othersActed {i : Caller} {s t : IssuerState Caller} (h : OthersActed i s t) :
    t.own i = s.own i := by
  obtain ⟨acts, hlog, hother⟩ := h
  have hnil : acts.filter (fun e => e.1 = i) = [] := by
    rw [List.filter_eq_nil_iff]
    intro e he
    simpa using hother e he
  rw [IssuerState.own, IssuerState.own, KeyedLog.ofKey, KeyedLog.ofKey, hlog, List.filter_append,
    hnil, List.append_nil]

def issuerLogic (orders : Caller → EmissionOrder) : Logic (issuerWorld Caller) where
  Inv := IssuerInv orders
  Rely := OthersActed
  Pre := fun i s => s.own i = []
  inv_init := by
    refine ⟨fun i => .start, fun h => ?_, ?_, ?_⟩
    · constructor
      · intro hm
        cases hm
      · rintro ⟨i, hm⟩
        cases hm
    · intro i j h hm
      cases hm
    · intro i h hm
      cases hm
  pre_init := fun _ => rfl
  rely_refl := fun _ s => ⟨[], (List.append_nil _).symm, fun _ h => by cases h⟩
  rely_trans := by
    rintro i s t u ⟨acts, hlog, h⟩ ⟨acts', hlog', h'⟩
    refine ⟨acts ++ acts', by rw [hlog', hlog, List.append_assoc], ?_⟩
    intro e he
    rcases List.mem_append.mp he with he | he
    · exact h e he
    · exact h' e he
  pre_stable := fun _ _ _ hs ht => (own_othersActed ht).trans hs

/-! ## Steps -/

section Steps

variable {orders : Caller → EmissionOrder} {i : Caller} {s t : IssuerState Caller}
  {acts : List Act}

omit [DecidableEq Caller] in
theorem othersActed_record {j : Caller} (hj : j ≠ i) (consumed : List Bytes) (a : Act) :
    OthersActed j t ⟨consumed, t.log ++ [(i, a)]⟩ := by
  refine ⟨[(i, a)], rfl, ?_⟩
  intro e he
  rw [List.mem_singleton.mp he]
  exact hj.symm

theorem legal_append (hinv : IssuerInv orders t) (hown : t.own i = acts) {a : Act}
    (hl : Legal (orders i) (acts ++ [a])) (consumed : List Bytes) (j : Caller) :
    Legal (orders j) (IssuerState.own ⟨consumed, t.log ++ [(i, a)]⟩ j) := by
  by_cases hj : i = j
  · subst hj
    rwa [own_append_self, hown]
  · rw [own_append_other hj]
    exact hinv.legal j

omit [DecidableEq Caller] in
theorem mem_log_append {j : Caller} {a b : Act} (hne : a ≠ b) :
    (j, b) ∈ t.log ++ [(i, a)] ↔ (j, b) ∈ t.log := by
  rw [List.mem_append, List.mem_singleton, Prod.mk.injEq]
  constructor
  · rintro (h | ⟨_, rfl⟩)
    · exact h
    · exact absurd rfl hne
  · exact Or.inl

/-- A step that touches neither the store nor the right to go on. -/
theorem inv_record (hinv : IssuerInv orders t) (hown : t.own i = acts) {a : Act}
    (hl : Legal (orders i) (acts ++ [a])) (hc : ∀ h, a ≠ .consumed h)
    (hr : ∀ h, a ≠ .replayed h) : IssuerInv orders (t.record i a) where
  legal := legal_append hinv hown hl _
  store := fun h => by
    simp only [IssuerState.record, mem_log_append (hc h)]
    exact hinv.store h
  once := fun j k h => by
    simp only [IssuerState.record, mem_log_append (hc h)]
    exact hinv.once j k h
  replay := fun j h => by
    simp only [IssuerState.record, mem_log_append (hc h), mem_log_append (hr h)]
    exact hinv.replay j h

/-- A hash that nobody consumed is consumed. -/
theorem inv_consumed (hinv : IssuerInv orders t) (hown : t.own i = acts) {h : Bytes}
    (hl : Legal (orders i) (acts ++ [.consumed h])) (hfree : h ∉ t.consumed) :
    IssuerInv orders ⟨h :: t.consumed, t.log ++ [(i, .consumed h)]⟩ where
  legal := legal_append hinv hown hl _
  store := fun h' => by
    rw [List.mem_cons, hinv.store h']
    constructor
    · rintro (rfl | ⟨j, hj⟩)
      · exact ⟨i, List.mem_append_right _ (List.mem_singleton_self _)⟩
      · exact ⟨j, List.mem_append_left _ hj⟩
    · rintro ⟨j, hj⟩
      rcases List.mem_append.mp hj with hj | hj
      · exact Or.inr ⟨j, hj⟩
      · cases List.mem_singleton.mp hj
        exact Or.inl rfl
  once := fun j k h' hj hk => by
    -- an old entry for `h` would have put it in the store
    have hold : ∀ l, (l, Act.consumed h) ∉ t.log := fun l hl =>
      hfree ((hinv.store h).mpr ⟨l, hl⟩)
    rcases List.mem_append.mp hj with hj | hj <;> rcases List.mem_append.mp hk with hk | hk
    · exact hinv.once j k h' hj hk
    · cases List.mem_singleton.mp hk
      exact absurd hj (hold j)
    · cases List.mem_singleton.mp hj
      exact absurd hk (hold k)
    · cases List.mem_singleton.mp hj
      cases List.mem_singleton.mp hk
      rfl
  replay := fun j h' hj => by
    rw [mem_log_append (by simp)] at hj
    obtain ⟨k, hk, hm⟩ := hinv.replay j h' hj
    exact ⟨k, hk, List.mem_append_left _ hm⟩

/-- A hash that another call consumed is a replay. -/
theorem inv_replayed (hinv : IssuerInv orders t) (hown : t.own i = acts) {h : Bytes}
    (hl : Legal (orders i) (acts ++ [.replayed h])) (hfresh : Act.consumed h ∉ acts)
    (hused : h ∈ t.consumed) :
    IssuerInv orders ⟨t.consumed, t.log ++ [(i, .replayed h)]⟩ where
  legal := legal_append hinv hown hl _
  store := fun h' => by
    simp only [mem_log_append (show Act.replayed h ≠ .consumed h' by simp)]
    exact hinv.store h'
  once := fun j k h' => by
    simp only [mem_log_append (show Act.replayed h ≠ .consumed h' by simp)]
    exact hinv.once j k h'
  replay := fun j h' hj => by
    rcases List.mem_append.mp hj with hj | hj
    · obtain ⟨k, hk, hm⟩ := hinv.replay j h' hj
      exact ⟨k, hk, List.mem_append_left _ hm⟩
    · cases List.mem_singleton.mp hj
      obtain ⟨k, hk⟩ := (hinv.store h).mp hused
      refine ⟨k, ?_, List.mem_append_left _ hk⟩
      rintro rfl
      exact hfresh (hown ▸ mem_own.mpr hk)

end Steps

/-! ## One call -/

section Call

variable {orders : Caller → EmissionOrder} {i : Caller} {s : IssuerState Caller}

/-- A grant that was refused as consumed met the hash in the store. -/
def RefusedAsReplay (orders : Caller → EmissionOrder) (i : Caller)
    (r : Except String Result) (s : IssuerState Caller) : Prop :=
  ∀ d result, (orders i).decision = some d → d.effect = effectAllow → r = .ok result →
    result.allowed = false → result.reasons = ["decision_deja_consommee"] →
    (i, Act.replayed d.decisionHash) ∈ s.log

theorem refusedAsReplay_stable (r : Except String Result) :
    (issuerLogic orders).Stable i (RefusedAsReplay orders i r) := by
  rintro s t hs ⟨acts, hlog, -⟩ d result hd ha hr hn hre
  rw [hlog]
  exact List.mem_append_left _ (hs d result hd ha hr hn hre)

/-- A call that ends in another way. -/
theorem safe_other {r : Except String Result} (h : ∀ d result, (orders i).decision = some d →
      d.effect = effectAllow → r = .ok result → result.allowed = false →
      result.reasons ≠ ["decision_deja_consommee"]) :
    Safe (issuerLogic orders) (RefusedAsReplay orders i) i (.ret r) s :=
  Logic.safe_ret (refusedAsReplay_stable r) fun d result hd ha hr hn hre =>
    absurd hre (h d result hd ha hr hn)

theorem safe_error (e : String) :
    Safe (issuerLogic orders) (RefusedAsReplay orders i) i (.ret (.error e)) s :=
  safe_other fun _ _ _ _ h => by cases h

theorem unsupported_ne {verb : String} :
    "moteur_non_supporte:" ++ verb ≠ "decision_deja_consommee" := by
  intro h
  have hhead := congrArg (fun s => s.toList.head?) h
  simp at hhead

theorem invalid_ne {reason : String} :
    "decision_invalide:" ++ reason ≠ "decision_deja_consommee" := by
  intro h
  have hhead := congrArg (fun s => s.toList[9]?) h
  simp at hhead

/-- After the right to go on. -/
theorem issue_safe {d : DecisionResponse} {resp : VerifyDecisionResponse}
    (g : Granted (orders i) d resp)
    (hown : s.own i = [.reported d (.ok resp), .consumed d.decisionHash]) :
    Safe (issuerLogic orders) (RefusedAsReplay orders i) i (Issuer.issue (orders i) d) s := by
  rw [Issuer.issue]
  cases hpath : openBaoPath (orders i).verb (orders i).resourceId with
  | error reason =>
      refine safe_other fun _ result _ _ hr _ hre => ?_
      rw [openBaoPath] at hpath
      split at hpath
      · cases hpath
      · cases hpath
        obtain rfl := Except.ok.inj hr
        exact unsupported_ne (List.cons.inj hre).1
  | ok path =>
      intro t ht hit r u hx
      obtain rfl := hx
      refine ⟨hit, fun j _ => (issuerLogic orders).rely_refl j _, ?_⟩
      cases r with
      | error e => exact safe_error _
      | ok eventId =>
          intro t' ht' hit' r u hx
          obtain rfl := hx
          have hown' : t'.own i = _ :=
            (own_othersActed ht').trans ((own_othersActed ht).trans hown)
          refine ⟨inv_record hit' hown' (.invoked g path _) (by simp) (by simp),
            fun j hj => othersActed_record hj _ _, ?_⟩
          cases r with
          | error e => exact safe_error _
          | ok lease =>
              refine safe_other fun _ result _ _ hr hn => ?_
              obtain rfl := Except.ok.inj hr
              cases hn

/-- The store grants the right to go on, or reports a replay. -/
theorem consume_safe {d : DecisionResponse} {resp : VerifyDecisionResponse}
    (g : Granted (orders i) d resp) (hown : s.own i = [.reported d (.ok resp)]) :
    Safe (issuerLogic orders) (RefusedAsReplay orders i) i (Issuer.consume (orders i) d) s := by
  intro t ht hit r u hx
  have hown' : t.own i = [.reported d (.ok resp)] := (own_othersActed ht).trans hown
  obtain ⟨hr, hu⟩ := hx
  by_cases hused : d.decisionHash ∈ t.consumed
  · have hmark : InMemoryConsumedDecisionStore.markConsumed t.consumed d.decisionHash =
        (true, t.consumed) := if_pos hused
    rw [hmark] at hr hu
    obtain rfl := hr
    obtain rfl := hu
    refine ⟨inv_replayed hit hown' (.replayed g) (by simp) hused,
      fun j hj => othersActed_record hj _ _, ?_⟩
    refine Logic.safe_ret (refusedAsReplay_stable _) fun d' _ hd' _ _ _ _ => ?_
    rw [Option.some.inj (hd'.symm.trans g.decision_eq)]
    exact List.mem_append_right _ (List.mem_singleton_self _)
  · have hmark : InMemoryConsumedDecisionStore.markConsumed t.consumed d.decisionHash =
        (false, d.decisionHash :: t.consumed) := if_neg hused
    rw [hmark] at hr hu
    obtain rfl := hr
    obtain rfl := hu
    refine ⟨inv_consumed hit hown' (.consumed g) hused,
      fun j hj => othersActed_record hj _ _, ?_⟩
    exact issue_safe g (own_append_self.trans (congrArg (· ++ [_]) hown'))

theorem reported_safe {d : DecisionResponse} {resp : VerifyDecisionResponse}
    (hd : (orders i).decision = some d) (hown : s.own i = [.reported d (.ok resp)]) :
    Safe (issuerLogic orders) (RefusedAsReplay orders i) i
      (Issuer.reported (orders i) d resp) s := by
  rw [Issuer.reported]
  split
  · refine safe_other fun _ result _ _ hr _ hre => ?_
    obtain rfl := Except.ok.inj hr
    exact invalid_ne (List.cons.inj hre).1
  · rename_i hvalid
    split
    · rename_i hdeny
      refine safe_other fun d' _ hd' ha => ?_
      rw [Option.some.inj (hd'.symm.trans hd)] at ha
      exact absurd ha hdeny
    · rename_i hallow
      exact consume_safe ⟨hd, by simpa using hvalid, not_not.mp hallow⟩ hown

/-- **One call, whatever the others do.** -/
theorem emit_safe (hpre : s.own i = []) :
    Safe (issuerLogic orders) (RefusedAsReplay orders i) i (Issuer.emit (orders i)) s := by
  rw [Issuer.emit]
  cases hd : (orders i).decision with
  | none => exact safe_other fun d _ hd' => by rw [hd] at hd'; cases hd'
  | some d =>
      intro t ht hit r u hx
      obtain rfl := hx
      have hown : t.own i = [] := (own_othersActed ht).trans hpre
      refine ⟨inv_record hit hown (.reported hd r) (by simp) (by simp),
        fun j hj => othersActed_record hj _ _, ?_⟩
      cases r with
      | error e => exact safe_error _
      | ok resp => exact reported_safe hd (own_append_self.trans (congrArg (· ++ [_]) hown))

end Call

/-! ## Every run -/

/-- An invocation of OpenBao by a call whose decision has that hash. -/
def invokedFor (orders : Caller → EmissionOrder) (decisionHash : Bytes) (e : Caller × Act) :
    Bool :=
  e.2.isInvoked && (orders e.1).decision.map DecisionResponse.decisionHash == some decisionHash

/-- One call at most invokes OpenBao for a hash. -/
theorem invoked_unique {orders : Caller → EmissionOrder} {s : IssuerState Caller}
    (hinv : IssuerInv orders s) {h : Bytes} {e e' : Caller × Act}
    (he : e ∈ s.log.filter (invokedFor orders h)) (he' : e' ∈ s.log.filter (invokedFor orders h)) :
    e.1 = e'.1 := by
  have hconsumed : ∀ e ∈ s.log.filter (invokedFor orders h), (e.1, Act.consumed h) ∈ s.log := by
    rintro ⟨i, a⟩ hm
    obtain ⟨hm, hfor⟩ := List.mem_filter.mp hm
    rw [invokedFor, Bool.and_eq_true, beq_iff_eq] at hfor
    cases a with
    | invoked path ttl =>
        obtain ⟨d, resp, g, -, hc⟩ := legal_invoked (hinv.legal i) (mem_own.mpr hm)
        have hh : d.decisionHash = h := by
          have := hfor.2
          rw [g.decision_eq] at this
          exact Option.some.inj this
        rw [← hh]
        exact mem_own.mp hc
    | _ => cases hfor.1
  exact hinv.once _ _ h (hconsumed e he) (hconsumed e' he')

/-- **At most one invocation for a hash**: the invocations for it are all one
caller's, and a caller invokes once. -/
theorem invoked_count {orders : Caller → EmissionOrder} {s : IssuerState Caller}
    (hinv : IssuerInv orders s) (h : Bytes) :
    (s.log.filter (invokedFor orders h)).length ≤ 1 := by
  rcases hf : s.log.filter (invokedFor orders h) with _ | ⟨e, es⟩
  · exact Nat.zero_le 1
  · rw [← hf]
    have hmem : e ∈ s.log.filter (invokedFor orders h) := by
      rw [hf]
      exact List.mem_cons_self
    have hsame : s.log.filter (invokedFor orders h) =
        (s.log.filter (invokedFor orders h)).filter (fun x => x.1 = e.1) := by
      refine (List.filter_eq_self.mpr fun x hx => ?_).symm
      simpa using invoked_unique hinv hx hmem
    have hsub : (s.log.filter (invokedFor orders h)).Sublist
        ((KeyedLog.ofKey Prod.fst s.log e.1).filter (Act.isInvoked ∘ Prod.snd)) := by
      rw [hsame, KeyedLog.ofKey, List.filter_filter, List.filter_filter]
      apply List.monotone_filter_right
      intro x hx
      rw [Bool.and_eq_true, invokedFor, Bool.and_eq_true] at hx
      rw [Bool.and_eq_true]
      exact ⟨hx.2.1, hx.1⟩
    calc (s.log.filter (invokedFor orders h)).length
        ≤ ((KeyedLog.ofKey Prod.fst s.log e.1).filter (Act.isInvoked ∘ Prod.snd)).length :=
          hsub.length_le
      _ = ((s.own e.1).filter Act.isInvoked).length := by
          rw [IssuerState.own, List.filter_map, List.length_map]
      _ ≤ 1 := legal_invoked_once (hinv.legal e.1)

/-- **At-most-once issuance.** In every reachable state of any number of
`Emit` calls: OpenBao was invoked at most once for a decision hash; a call that
invoked it carried a decision that grants and was reported valid; and a
granting decision that was refused as consumed was consumed by another call
whose decision has that hash, grants and was reported valid. -/
theorem emit_at_most_once (orders : Caller → EmissionOrder)
    (c : Config (issuerWorld Caller) (Except String Result))
    (hc : Reachable (issuerWorld Caller) (fun i p => p = Issuer.emit (orders i)) c) :
    (∀ h, (c.state.log.filter (invokedFor orders h)).length ≤ 1) ∧
    (∀ i path ttl, (i, Act.invoked path ttl) ∈ c.state.log → ∃ d resp,
      (orders i).decision = some d ∧ d.effect = effectAllow ∧ resp.valid = true ∧
        (i, Act.reported d (.ok resp)) ∈ c.state.log) ∧
    ∀ i d result, (orders i).decision = some d → d.effect = effectAllow →
      c.procs i = some (.ret (.ok result)) → result.allowed = false →
      result.reasons = ["decision_deja_consommee"] →
      ∃ j d' resp, j ≠ i ∧ (orders j).decision = some d' ∧ d'.effect = effectAllow ∧
        d'.decisionHash = d.decisionHash ∧ resp.valid = true ∧
        (j, Act.reported d' (.ok resp)) ∈ c.state.log ∧
        (j, Act.consumed d'.decisionHash) ∈ c.state.log := by
  have hentry : ∀ i p, p = Issuer.emit (orders i) → ∀ s, (issuerLogic orders).Inv s →
      (issuerLogic orders).Pre i s →
      Safe (issuerLogic orders) (RefusedAsReplay orders i) i p s := by
    rintro i p rfl s - hpre
    exact emit_safe hpre
  have hinv : IssuerInv orders c.state :=
    (Logic.reachable_safe (issuerLogic orders) (RefusedAsReplay orders) hentry hc).1
  refine ⟨invoked_count hinv, ?_, ?_⟩
  · intro i path ttl hm
    obtain ⟨d, resp, g, hr, -⟩ := legal_invoked (hinv.legal i) (mem_own.mpr hm)
    exact ⟨d, resp, g.decision_eq, g.allow, g.valid, mem_own.mp hr⟩
  · intro i d result hd ha hret hn hre
    have hreplay := Logic.reachable_post (issuerLogic orders) (RefusedAsReplay orders) hentry hc
      hret d result hd ha rfl hn hre
    obtain ⟨j, hj, hm⟩ := hinv.replay i d.decisionHash hreplay
    obtain ⟨d', resp, g, hh, hr⟩ := legal_consumed (hinv.legal j) (mem_own.mpr hm)
    refine ⟨j, d', resp, hj, g.decision_eq, g.allow, hh, g.valid, mem_own.mp hr, ?_⟩
    rwa [hh]

/-! ### One decision, two orders -/

/-- Services that answer, with a decision reported valid. -/
def available (i : Caller) : (op : IssuerOp) → IssuerState Caller →
    IssuerResp op × IssuerState Caller
  | .verifyDecision decision, s =>
      (.ok ⟨true, ""⟩, s.record i (.reported decision (.ok ⟨true, ""⟩)))
  | .markConsumed decisionHash, s =>
      let marked := InMemoryConsumedDecisionStore.markConsumed s.consumed decisionHash
      (.ok marked.1, ⟨marked.2, s.log ++ [(i, markAct marked.1 decisionHash)]⟩)
  | .newV7, s => (.ok "01890000-0000-7000-8000-000000000000", s)
  | .issueLease path ttlSeconds, s =>
      (.ok ⟨"database/creds/db-1/lease", 900000000000⟩, s.record i (.invoked path ttlSeconds))

omit [DecidableEq Caller] in
theorem available_exec (i : Caller) (op : IssuerOp) (s : IssuerState Caller) :
    (issuerWorld Caller).exec i op s (available i op s).1 (available i op s).2 := by
  cases op with
  | verifyDecision decision => rfl
  | markConsumed decisionHash => exact ⟨rfl, rfl⟩
  | newV7 => rfl
  | issueLease path ttlSeconds => rfl

def sampleDecision : DecisionResponse :=
  { unsealed effectAllow ["db-connect-production"] [0xAB] "v1" with
    issuedAt := some ⟨1787500800, 0⟩
    decisionSignature := [0x01]
    decisionSignatureKeyId := "key" }

def sampleOrder : EmissionOrder where
  verb := "db.connect"
  resourceType := "Database"
  resourceId := "db-1"
  authorityDomain := "corp.eu-west"
  decision := some sampleDecision
  requestId := "01890000-0000-7000-8000-000000000001"
  subjectId := "sub-6b2f9c"
  aal := "AAL3"
  authMethod := "webauthn/device-bound"

/-- The same order twice: issued, then refused as consumed. -/
theorem emit_twice_issues_once :
    ∃ c : Config (issuerWorld Nat) (Except String Result),
      c.procs 1 = some (.ret (.ok (refused ["decision_deja_consommee"]))) ∧
      (c.state.log.filter (invokedFor (fun _ => sampleOrder) [0xAB])).length ≤ 1 ∧
      ∃ j resp, j ≠ 1 ∧ resp.valid = true ∧
        (j, Act.reported sampleDecision (.ok resp)) ∈ c.state.log := by
  have hinit : Reachable (issuerWorld Nat) (fun _ p => p = Issuer.emit sampleOrder) _ := .init
  obtain ⟨c, hc, hstate, -, hother⟩ := reachable_alone (W := issuerWorld Nat) (available_exec 0)
    hinit rfl rfl
  obtain ⟨c', hc', -, hproc, -⟩ := reachable_alone (W := issuerWorld Nat) (available_exec 1) hc
    (hother 1 (by decide)) rfl
  have hsecond : c'.procs 1 = some (.ret (.ok (refused ["decision_deja_consommee"]))) := by
    rw [hproc, hstate]
    rfl
  obtain ⟨hcount, -, hreplay⟩ := emit_at_most_once (fun _ => sampleOrder) c' hc'
  obtain ⟨j, d, resp, hj, hd, -, -, hvalid, hm, -⟩ :=
    hreplay 1 sampleDecision _ rfl rfl hsecond rfl rfl
  obtain rfl := Option.some.inj hd
  exact ⟨c', hsecond, hcount _, j, resp, hj, hvalid, hm⟩

end ZeroSecret.Issuance
