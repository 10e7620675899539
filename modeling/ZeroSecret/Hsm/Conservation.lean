import ZeroSecret.Hsm.SessionPool

/-!
# Sessions are returned or replaced

Any number of calls share one pool, in any interleaving of their steps and with
any answers of the token. Two early exits break what the pool promises: a
signature whose key is not found drops its session and replaces nothing, and a
public key whose search reports a lost session returns that session. In a run
where no search ends so, every session taken is returned or replaced
(`pool_conserved`).

The proof reads a ledger off the history: who holds which session, and who owes
the pool one.
-/

namespace ZeroSecret.Hsm

open Interleave

/-! ## What a history says -/

abbrev Log (Caller : Type) : Type := List (Executed Caller PoolResp)

/-- The errors after which nothing is known of the session. -/
def HsmError.uncertain : HsmError → Bool
  | .sessionLost | .notLoggedIn | .tokenAbsent => true
  | _ => false

/-- The session whose operation failed, and how. -/
def sessionError : (op : PoolOp) → PoolResp op → Option (Session × HsmError)
  | .login session _, .error err => some (session, mapError err)
  | .findObjects session _ _, .error err => some (session, mapError err)
  | .sign session _ _ _, .error err => some (session, mapError err)
  | .getAttributes session _ _, .error err => some (session, mapError err)
  | _, _ => none

/-- The act leaves the session in an uncertain state. -/
def Spoils (a : Act PoolResp) (session : Session) : Prop :=
  ∃ e, sessionError a.op a.answer = some (session, e) ∧ e.uncertain = true

/-- A replacement fails when its session cannot be opened, or not logged in. -/
def replacementFailed : (op : PoolOp) → PoolResp op → Bool
  | .openRwSession _, .error _ => true
  | .login _ _, .error _ => true
  | _, _ => false

section

variable {Caller : Type}

def Spoiled (h : Log Caller) (session : Session) : Prop := ∃ e ∈ h, Spoils e.toAct session

def failedReplacements (h : Log Caller) : Nat :=
  h.countP fun e => replacementFailed e.op e.answer

/-- No session returns to the queue after an act that spoiled it. -/
def NeverPutBack (h : Log Caller) : Prop :=
  ∀ h₁ e h₂ session, h = h₁ ++ e :: h₂ → e.op = .pushBack session → ¬ Spoiled h₁ session

/-- Every call that began has returned. -/
def NoCallInProgress {n : Nat} (c : Config (poolWorld Caller n) (Except HsmError Bytes)) : Prop :=
  ∀ i p, c.procs i = some p → ∃ r, p = .ret r

/-- A search for a private key finds exactly one; a search for a public key
does not end in an error that leaves the session uncertain. -/
def KeysAnswered : (op : PoolOp) → PoolResp op → Prop
  | .findObjects _ .privateKey _, r => ∃ handle, r = .ok [handle]
  | .findObjects _ .publicKey _, r => ∀ err, r = .error err → (mapError err).uncertain = false
  | _, _ => True

theorem spoiled_snoc {h : Log Caller} {e : Executed Caller PoolResp} {k : Session} :
    Spoiled (h ++ [e]) k ↔ Spoiled h k ∨ Spoils e.toAct k := by
  simp [Spoiled, or_and_right, exists_or]

theorem failedReplacements_of_ok {h : Log Caller} {e : Executed Caller PoolResp}
    (he : replacementFailed e.op e.answer = false) :
    failedReplacements (h ++ [e]) = failedReplacements h := by
  simp [failedReplacements, List.countP_append, he]

theorem failedReplacements_of_failed {h : Log Caller} {e : Executed Caller PoolResp}
    (he : replacementFailed e.op e.answer = true) :
    failedReplacements (h ++ [e]) = failedReplacements h + 1 := by
  simp [failedReplacements, List.countP_append, he]

theorem neverPutBack_snoc {h : Log Caller} {e : Executed Caller PoolResp} (hh : NeverPutBack h)
    (he : ∀ k, e.op = .pushBack k → ¬ Spoiled h k) : NeverPutBack (h ++ [e]) := by
  intro h₁ e' h₂ k heq hop
  rcases List.eq_nil_or_concat h₂ with rfl | ⟨h₃, e'', rfl⟩
  · obtain ⟨rfl, hlast⟩ := List.append_inj' heq rfl
    obtain rfl := List.singleton_inj.mp hlast
    exact he k hop
  · have hsplit : h ++ [e] = (h₁ ++ e' :: h₃) ++ [e''] := by simpa using heq
    exact hh h₁ e' h₃ k (List.append_inj' hsplit rfl).1 hop

/-! ## The ledger -/

/-- Who holds a session outside the queue, and who has taken one without
having returned or replaced it. -/
structure Ledger (Caller : Type) where
  holder : Session → Option Caller
  debtors : List Caller

variable [DecidableEq Caller]

def Ledger.enter (g : Ledger Caller) (i : Caller) :
    (op : PoolOp) → PoolResp op → Ledger Caller
  | .popFront, some k => ⟨Function.update g.holder k (some i), i :: g.debtors⟩
  | .openRwSession _, .ok k => ⟨Function.update g.holder k (some i), g.debtors⟩
  | .openRwSession _, .error _ => ⟨g.holder, g.debtors.erase i⟩
  | .login _ _, .error _ => ⟨g.holder, g.debtors.erase i⟩
  | .pushBack k, _ => ⟨Function.update g.holder k none, g.debtors.erase i⟩
  | _, _ => g

def ledger (h : Log Caller) : Ledger Caller :=
  h.foldl (fun g e => g.enter e.caller e.op e.answer) ⟨fun _ => none, []⟩

theorem ledger_snoc {h : Log Caller} {i : Caller} {op : PoolOp} {r : PoolResp op} :
    ledger (h ++ [⟨⟨op, r⟩, i⟩]) = (ledger h).enter i op r := by
  simp [ledger]

/-- `i` owes the pool a session. -/
def Owes (i : Caller) (h : Log Caller) : Prop := i ∈ (ledger h).debtors

/-- `i` holds `k`, of which nothing bad is known. -/
def Holds (i : Caller) (k : Session) (h : Log Caller) : Prop :=
  (ledger h).holder k = some i ∧ ¬ Spoiled h k

/-- Every session of the opened pool is in the queue, owed by a caller, or lost
to a failed replacement. -/
structure PoolInv (n : Nat) (s : PoolState) (h : Log Caller) : Prop where
  nodup : s.sessions.Nodup
  idle : ∀ k ∈ s.sessions, (ledger h).holder k = none
  sound : ∀ k ∈ s.sessions, ¬ Spoiled h k
  opened : ∀ k ∈ s.sessions, k < s.next
  unopened : ∀ k, s.next ≤ k → (ledger h).holder k = none ∧ ¬ Spoiled h k
  debtors_nodup : (ledger h).debtors.Nodup
  balance : s.sessions.length + (ledger h).debtors.length + failedReplacements h = n
  neverPutBack : NeverPutBack h

/-- The others touch neither what `i` holds nor what `i` owes. -/
structure Unharmed (i : Caller) (h h' : Log Caller) : Prop where
  holds : ∀ k, Holds i k h → Holds i k h'
  owes : Owes i h' ↔ Owes i h

/-! ## Steps -/

section Steps

variable {n : Nat} {s : PoolState} {h : Log Caller} {i j : Caller} {k : Session}

/-- A held session is out of the queue, and was opened. -/
theorem PoolInv.held (hinv : PoolInv n s h) (hheld : (ledger h).holder k = some i) :
    k ∉ s.sessions ∧ k < s.next := by
  constructor
  · intro hk
    rw [hinv.idle k hk] at hheld
    cases hheld
  · by_contra hlt
    rw [(hinv.unopened k (Nat.not_lt.mp hlt)).1] at hheld
    cases hheld

/-! ### Operations of the token -/

omit [DecidableEq Caller] in
theorem not_spoils_of_none {op : PoolOp} {r : PoolResp op} (h : sessionError op r = none)
    (k : Session) : ¬ Spoils ⟨op, r⟩ k := by
  rintro ⟨e, he, -⟩
  rw [h] at he
  cases he

/-- The operation is on a session that the caller holds, or on none, and leaves
the debtors `debtors`. -/
structure Own (h : Log Caller) (i : Caller) (op : PoolOp) (r : PoolResp op)
    (debtors : List Caller) : Prop where
  enter_eq : (ledger h).enter i op r = ⟨(ledger h).holder, debtors⟩
  no_push : ∀ k, op ≠ .pushBack k
  own : ∀ k, Spoils ⟨op, r⟩ k → (ledger h).holder k = some i

section Own

variable {op : PoolOp} {r : PoolResp op} {debtors : List Caller}

theorem Own.inv (ho : Own h i op r debtors) (hinv : PoolInv n s h) (hnodup : debtors.Nodup)
    (hbalance : debtors.length + failedReplacements (h ++ [⟨⟨op, r⟩, i⟩]) =
      (ledger h).debtors.length + failedReplacements h) :
    PoolInv n s (h ++ [⟨⟨op, r⟩, i⟩]) where
  nodup := hinv.nodup
  idle := by
    intro k hk
    rw [ledger_snoc, ho.enter_eq]
    exact hinv.idle k hk
  sound := by
    intro k hk hspoiled
    rcases spoiled_snoc.mp hspoiled with hold | hnew
    · exact hinv.sound k hk hold
    · exact (hinv.held (ho.own k hnew)).1 hk
  opened := hinv.opened
  unopened := by
    intro k hk
    rw [ledger_snoc, ho.enter_eq]
    refine ⟨(hinv.unopened k hk).1, fun hspoiled => ?_⟩
    rcases spoiled_snoc.mp hspoiled with hold | hnew
    · exact (hinv.unopened k hk).2 hold
    · exact absurd (hinv.held (ho.own k hnew)).2 (Nat.not_lt.mpr hk)
  debtors_nodup := by
    rw [ledger_snoc, ho.enter_eq]
    exact hnodup
  balance := by
    rw [ledger_snoc, ho.enter_eq, Nat.add_assoc, hbalance, ← Nat.add_assoc]
    exact hinv.balance
  neverPutBack := neverPutBack_snoc hinv.neverPutBack fun k hop => absurd hop (ho.no_push k)

theorem Own.owes_iff (ho : Own h i op r debtors) :
    Owes j (h ++ [⟨⟨op, r⟩, i⟩]) ↔ j ∈ debtors := by
  rw [Owes, ledger_snoc, ho.enter_eq]

theorem Own.holds (ho : Own h i op r debtors) (hk : Holds j k h) (hclean : ¬ Spoils ⟨op, r⟩ k) :
    Holds j k (h ++ [⟨⟨op, r⟩, i⟩]) := by
  refine ⟨?_, fun hspoiled => ?_⟩
  · rw [ledger_snoc, ho.enter_eq]
    exact hk.1
  · rcases spoiled_snoc.mp hspoiled with hold | hnew
    · exact hk.2 hold
    · exact hclean hnew

theorem Own.unharmed (ho : Own h i op r debtors) (hj : j ≠ i)
    (hdebtors : j ∈ debtors ↔ j ∈ (ledger h).debtors) :
    Unharmed j h (h ++ [⟨⟨op, r⟩, i⟩]) where
  holds := by
    intro k hk
    refine ho.holds hk fun hspoils => hj ?_
    exact Option.some.inj (hk.1.symm.trans (ho.own k hspoils))
  owes := ho.owes_iff.trans hdebtors

/-- An operation that ended in no session's error. -/
theorem Own.of_none (herr : sessionError op r = none)
    (henter : (ledger h).enter i op r = ⟨(ledger h).holder, debtors⟩)
    (hpush : ∀ k, op ≠ .pushBack k) : Own h i op r debtors :=
  ⟨henter, hpush, fun k hk => absurd hk (not_spoils_of_none herr k)⟩

end Own

/-! ### Sessions that change hands -/

/-- The operation makes `o` the holder of `k` and leaves the debtors
`debtors`. -/
structure Moves (h : Log Caller) (i : Caller) (op : PoolOp) (r : PoolResp op) (k : Session)
    (o : Option Caller) (debtors : List Caller) : Prop where
  no_error : sessionError op r = none
  enter_eq : (ledger h).enter i op r = ⟨Function.update (ledger h).holder k o, debtors⟩

section Moves

variable {op : PoolOp} {r : PoolResp op} {o : Option Caller} {debtors : List Caller}

theorem Moves.spoiled_iff (hm : Moves h i op r k o debtors) {l : Session} :
    Spoiled (h ++ [⟨⟨op, r⟩, i⟩]) l ↔ Spoiled h l :=
  spoiled_snoc.trans (or_iff_left (not_spoils_of_none hm.no_error l))

theorem Moves.holder_self (hm : Moves h i op r k o debtors) :
    (ledger (h ++ [⟨⟨op, r⟩, i⟩])).holder k = o := by
  rw [ledger_snoc, hm.enter_eq]
  exact Function.update_self k _ _

theorem Moves.holder_of_ne (hm : Moves h i op r k o debtors) {l : Session} (hl : l ≠ k) :
    (ledger (h ++ [⟨⟨op, r⟩, i⟩])).holder l = (ledger h).holder l := by
  rw [ledger_snoc, hm.enter_eq]
  exact Function.update_of_ne hl _ _

theorem Moves.owes_iff (hm : Moves h i op r k o debtors) :
    Owes j (h ++ [⟨⟨op, r⟩, i⟩]) ↔ j ∈ debtors := by
  rw [Owes, ledger_snoc, hm.enter_eq]

theorem Moves.holds_self (hm : Moves h i op r k (some i) debtors) (hk : ¬ Spoiled h k) :
    Holds i k (h ++ [⟨⟨op, r⟩, i⟩]) :=
  ⟨hm.holder_self, fun hspoiled => hk (hm.spoiled_iff.mp hspoiled)⟩

theorem Moves.unharmed (hm : Moves h i op r k o debtors) (hfree : (ledger h).holder k ≠ some j)
    (hdebtors : j ∈ debtors ↔ j ∈ (ledger h).debtors) :
    Unharmed j h (h ++ [⟨⟨op, r⟩, i⟩]) where
  holds := by
    rintro l ⟨hl, hclean⟩
    have hne : l ≠ k := by
      rintro rfl
      exact hfree hl
    exact ⟨(hm.holder_of_ne hne).trans hl, fun hspoiled => hclean (hm.spoiled_iff.mp hspoiled)⟩
  owes := hm.owes_iff.trans hdebtors

/-- The queue keeps other sessions than `k`; `k` itself is in it only when
nobody holds it and nothing bad is known of it. -/
theorem Moves.inv (hm : Moves h i op r k o debtors) (hinv : PoolInv n s h) {s' : PoolState}
    (hsessions : s'.sessions.Nodup)
    (hmem : ∀ l ∈ s'.sessions, (l ∈ s.sessions ∧ l ≠ k) ∨ (l = k ∧ o = none ∧ ¬ Spoiled h k))
    (hnext : s.next ≤ s'.next) (hk : k < s'.next) (hnodup : debtors.Nodup)
    (hbalance : s'.sessions.length + debtors.length + failedReplacements h = n)
    (hok : replacementFailed op r = false) (hpush : ∀ l, op = .pushBack l → ¬ Spoiled h l) :
    PoolInv n s' (h ++ [⟨⟨op, r⟩, i⟩]) where
  nodup := hsessions
  idle := by
    intro l hl
    rcases hmem l hl with ⟨hold, hne⟩ | ⟨rfl, rfl, -⟩
    · exact (hm.holder_of_ne hne).trans (hinv.idle l hold)
    · exact hm.holder_self
  sound := by
    intro l hl
    rw [hm.spoiled_iff]
    rcases hmem l hl with ⟨hold, -⟩ | ⟨rfl, -, hclean⟩
    · exact hinv.sound l hold
    · exact hclean
  opened := by
    intro l hl
    rcases hmem l hl with ⟨hold, -⟩ | ⟨rfl, -, -⟩
    · exact Nat.lt_of_lt_of_le (hinv.opened l hold) hnext
    · exact hk
  unopened := by
    intro l hl
    have hne : l ≠ k := by
      rintro rfl
      exact absurd hk (Nat.not_lt.mpr hl)
    rw [hm.holder_of_ne hne, hm.spoiled_iff]
    exact hinv.unopened l (Nat.le_trans hnext hl)
  debtors_nodup := by
    rw [ledger_snoc, hm.enter_eq]
    exact hnodup
  balance := by
    rw [ledger_snoc, hm.enter_eq, failedReplacements_of_ok hok]
    exact hbalance
  neverPutBack := neverPutBack_snoc hinv.neverPutBack hpush

end Moves

theorem moves_popFront : Moves h i .popFront (some k) k (some i) (i :: (ledger h).debtors) :=
  ⟨rfl, rfl⟩

theorem moves_openRwSession (slot : Slot) :
    Moves h i (.openRwSession slot) (.ok k) k (some i) (ledger h).debtors := ⟨rfl, rfl⟩

theorem moves_pushBack : Moves h i (.pushBack k) () k none ((ledger h).debtors.erase i) :=
  ⟨rfl, rfl⟩

theorem popFront_inv {rest : List Session} {next : Session} (hinv : PoolInv n ⟨k :: rest, next⟩ h)
    (hi : ¬ Owes i h) : PoolInv n ⟨rest, next⟩ (h ++ [⟨⟨.popFront, some k⟩, i⟩]) := by
  obtain ⟨hk, hrest⟩ := List.nodup_cons.mp hinv.nodup
  refine moves_popFront.inv hinv hrest ?_ (Nat.le_refl next)
    (hinv.opened k List.mem_cons_self) (List.nodup_cons.mpr ⟨hi, hinv.debtors_nodup⟩) ?_ rfl ?_
  · intro l hl
    refine Or.inl ⟨List.mem_cons_of_mem k hl, ?_⟩
    rintro rfl
    exact hk hl
  · have hbalance := hinv.balance
    simp only [List.length_cons] at hbalance ⊢
    omega
  · intro l hop
    cases hop

theorem pushBack_inv (hinv : PoolInv n s h) (hk : Holds i k h) (hi : Owes i h) :
    PoolInv n { s with sessions := s.sessions ++ [k] } (h ++ [⟨⟨.pushBack k, ()⟩, i⟩]) := by
  obtain ⟨hout, hopened⟩ := hinv.held hk.1
  refine moves_pushBack.inv hinv ?_ ?_ (Nat.le_refl s.next) hopened
    (hinv.debtors_nodup.erase i) ?_ rfl ?_
  · simpa [List.nodup_append] using ⟨hinv.nodup, fun l hl heq => hout (heq ▸ hl)⟩
  · intro l hl
    rcases List.mem_append.mp hl with hold | hnew
    · refine Or.inl ⟨hold, ?_⟩
      rintro rfl
      exact hout hold
    · exact Or.inr ⟨List.mem_singleton.mp hnew, rfl, hk.2⟩
  · have hbalance := hinv.balance
    have hpos : 0 < (ledger h).debtors.length := List.length_pos_of_mem hi
    simp only [List.length_append, List.length_singleton, List.length_erase_of_mem hi]
    omega
  · intro l hop
    cases hop
    exact hk.2

theorem openRwSession_inv (slot : Slot) (hinv : PoolInv n s h) :
    PoolInv n { s with next := s.next + 1 } (h ++ [⟨⟨.openRwSession slot, .ok s.next⟩, i⟩]) := by
  refine (moves_openRwSession slot).inv hinv hinv.nodup ?_ (Nat.le_succ s.next)
    (Nat.lt_succ_self s.next) hinv.debtors_nodup hinv.balance rfl ?_
  · intro l hl
    exact Or.inl ⟨hl, Nat.ne_of_lt (hinv.opened l hl)⟩
  · intro l hop
    cases hop

end Steps

/-! ## The logic of a call -/

/-- The runs where the searches end well, with their acts. -/
abbrev answeredWorld (Caller : Type) (n : Nat) : World Caller PoolOp PoolResp :=
  ((poolWorld Caller n).restrict fun _ op _ r _ => KeysAnswered op r).recording

theorem inv_opened (n : Nat) : PoolInv n ⟨List.range n, n⟩ ([] : Log Caller) where
  nodup := List.nodup_range
  idle := fun _ _ => rfl
  sound := by
    rintro k - ⟨e, he, -⟩
    cases he
  opened := fun k hk => List.mem_range.mp hk
  unopened := by
    refine fun k _ => ⟨rfl, ?_⟩
    rintro ⟨e, he, -⟩
    cases he
  debtors_nodup := List.nodup_nil
  balance := by simp [ledger, failedReplacements]
  neverPutBack := by
    intro h₁ e h₂ k heq
    simp at heq

def poolLogic (Caller : Type) [DecidableEq Caller] (n : Nat) : Logic (answeredWorld Caller n) where
  Inv := fun t => PoolInv n t.1 t.2
  Rely := fun i t u => Unharmed i t.2 u.2
  Pre := fun i t => ¬ Owes i t.2
  inv_init := inv_opened n
  pre_init := fun i hi => by cases hi
  rely_refl := fun i t => ⟨fun _ hk => hk, Iff.rfl⟩
  rely_trans := fun i t u v h h' =>
    ⟨fun k hk => h'.holds k (h.holds k hk), h'.owes.trans h.owes⟩
  pre_stable := fun i t u hi h => mt h.owes.mp hi

section Call

variable {n : Nat} {i : Caller} {k : Session}

/-- `i` may use the session `k` and has to return it. -/
def Has (i : Caller) (k : Session) (h : Log Caller) : Prop := Holds i k h ∧ Owes i h

/-- What the others do leaves `A`. -/
def Kept (i : Caller) (A : Log Caller → Prop) : Prop := ∀ h h', A h → Unharmed i h h' → A h'

theorem kept_owes : Kept i (Owes i) := fun _ _ hi hu => hu.owes.mpr hi

theorem kept_settled : Kept i fun h => ¬ Owes i h := fun _ _ hi hu => mt hu.owes.mp hi

theorem kept_has : Kept i (Has i k) := fun _ _ hi hu => ⟨hu.holds k hi.1, hu.owes.mpr hi.2⟩

/-- One operation leads from `A` to `B`: the invariant holds after it and
nobody else is harmed. -/
def Leads (n : Nat) (i : Caller) (op : PoolOp) (A : Log Caller → Prop)
    (B : PoolResp op → Log Caller → Prop) : Prop :=
  ∀ s h r s', PoolInv n s h → A h → (poolWorld Caller n).exec i op s r s' → KeysAnswered op r →
    PoolInv n s' (h ++ [⟨⟨op, r⟩, i⟩]) ∧ (∀ j, j ≠ i → Unharmed j h (h ++ [⟨⟨op, r⟩, i⟩])) ∧
      B r (h ++ [⟨⟨op, r⟩, i⟩])

/-- A call that starts with an operation. -/
theorem Leads.safe {β : Type} {op : PoolOp} {A : Log Caller → Prop}
    {B : PoolResp op → Log Caller → Prop} {Q : β → Log Caller → Prop}
    {f : PoolResp op → PoolProg β} {t : PoolState × Log Caller} (hop : Leads n i op A B)
    (hA : Kept i A) (h : A t.2)
    (hf : ∀ r u, PoolInv n u.1 u.2 → B r u.2 →
      Safe (poolLogic Caller n) (fun b u => Q b u.2) i (f r) u) :
    Safe (poolLogic Caller n) (fun b u => Q b u.2) i (.call op f) t := by
  rintro ⟨s, l⟩ hrely hinv r ⟨s', l'⟩ ⟨⟨hx, hkeys⟩, hlog⟩
  obtain rfl : l' = l ++ [⟨⟨op, r⟩, i⟩] := hlog
  obtain ⟨hinv', hothers, hB⟩ := hop s l r s' hinv (hA t.2 l h hrely) hx hkeys
  exact ⟨hinv', hothers, hf r (s', l ++ [⟨⟨op, r⟩, i⟩]) hinv' hB⟩

theorem safe_return {β : Type} {Q : β → Log Caller → Prop} {b : β} {t : PoolState × Log Caller}
    (hQ : Kept i (Q b)) (h : Q b t.2) :
    Safe (poolLogic Caller n) (fun b u => Q b u.2) i (.ret b) t :=
  Logic.safe_ret (fun u v hu hrely => hQ u.2 v.2 hu hrely) h

/-! ### The operations -/

/-- The operations that move no session. -/
def PoolOp.still : PoolOp → Bool
  | .findObjects _ _ _ | .sign _ _ _ _ | .getAttributes _ _ _ => true
  | .closeSession _ | .waitTimeout => true
  | _ => false

theorem enter_of_still {op : PoolOp} (hop : op.still = true) (g : Ledger Caller)
    (r : PoolResp op) : g.enter i op r = g := by
  cases op <;> first | rfl | cases hop

omit [DecidableEq Caller] in
theorem replacementFailed_of_still {op : PoolOp} (hop : op.still = true) (r : PoolResp op) :
    replacementFailed op r = false := by
  cases op <;> first | rfl | cases hop

omit [DecidableEq Caller] in
theorem exec_of_still {op : PoolOp} (hop : op.still = true) {s s' : PoolState} {r : PoolResp op}
    (hx : (poolWorld Caller n).exec i op s r s') : s' = s := by
  cases op with
  | findObjects => exact hx
  | sign => exact hx
  | getAttributes => exact hx
  | closeSession => exact hx
  | waitTimeout => exact hx.2
  | _ => cases hop

theorem leads_still {op : PoolOp} (hop : op.still = true) {A : Log Caller → Prop}
    {B : PoolResp op → Log Caller → Prop}
    (hown : ∀ h r k, A h → Spoils ⟨op, r⟩ k → (ledger h).holder k = some i)
    (hB : ∀ h r, A h → Own h i op r (ledger h).debtors → B r (h ++ [⟨⟨op, r⟩, i⟩])) :
    Leads n i op A B := by
  intro s h r s' hinv hA hx _
  obtain rfl := exec_of_still hop hx
  have ho : Own h i op r (ledger h).debtors := by
    refine ⟨enter_of_still hop _ r, ?_, fun k => hown h r k hA⟩
    rintro k rfl
    cases hop
  refine ⟨ho.inv hinv hinv.debtors_nodup ?_, fun j hj => ho.unharmed hj Iff.rfl, hB h r hA ho⟩
  rw [failedReplacements_of_ok (replacementFailed_of_still hop r)]

theorem leads_closeSession_owes : Leads n i (.closeSession k) (Owes i) fun _ => Owes i :=
  leads_still rfl (fun _ _ l _ hl => absurd hl (not_spoils_of_none rfl l))
    fun _ _ hi ho => ho.owes_iff.mpr hi

theorem leads_closeSession_settled :
    Leads n i (.closeSession k) (fun h => ¬ Owes i h) fun _ h => ¬ Owes i h :=
  leads_still rfl (fun _ _ l _ hl => absurd hl (not_spoils_of_none rfl l))
    fun _ _ hi ho => mt ho.owes_iff.mp hi

theorem leads_waitTimeout : Leads n i .waitTimeout (fun h => ¬ Owes i h) fun _ h => ¬ Owes i h :=
  leads_still rfl (fun _ _ l _ hl => absurd hl (not_spoils_of_none rfl l))
    fun _ _ hi ho => mt ho.owes_iff.mp hi

/-- An operation on a session of the caller: the session is as good as the
answer. -/
theorem leads_operation {op : PoolOp} (hop : op.still = true)
    (hk : ∀ r l e, sessionError op r = some (l, e) → l = k) :
    Leads n i op (Has i k) fun r h => Owes i h ∧ (¬ Spoils ⟨op, r⟩ k → Holds i k h) := by
  refine leads_still hop ?_ ?_
  · rintro h r l hi ⟨e, he, -⟩
    obtain rfl := hk r l e he
    exact hi.1.1
  · intro h r hi ho
    exact ⟨ho.owes_iff.mpr hi.2, ho.holds hi.1⟩

theorem leads_popFront : Leads n i .popFront (fun h => ¬ Owes i h) fun r h =>
    match r with
    | some k => Has i k h
    | none => ¬ Owes i h := by
  rintro ⟨sessions, next⟩ h r s' hinv hi ⟨rfl, rfl⟩ _
  cases sessions with
  | nil =>
      have ho : Own h i .popFront none (ledger h).debtors :=
        .of_none rfl rfl fun k hop => by cases hop
      refine ⟨ho.inv hinv hinv.debtors_nodup ?_, fun j hj => ho.unharmed hj Iff.rfl,
        mt ho.owes_iff.mp hi⟩
      rw [failedReplacements_of_ok rfl]
  | cons k rest =>
      have hm : Moves h i .popFront (some k) k (some i) (i :: (ledger h).debtors) :=
        moves_popFront
      refine ⟨popFront_inv hinv hi, fun j hj => hm.unharmed ?_ ?_, ?_, ?_⟩
      · rw [hinv.idle k List.mem_cons_self]
        exact fun hnone => by cases hnone
      · exact List.mem_cons.trans (or_iff_right hj)
      · exact hm.holds_self (hinv.sound k List.mem_cons_self)
      · exact hm.owes_iff.mpr List.mem_cons_self

theorem leads_pushBack : Leads n i (.pushBack k) (Has i k) fun _ h => ¬ Owes i h := by
  rintro s h r s' hinv ⟨hk, hi⟩ rfl _
  have hm : Moves h i (.pushBack k) () k none ((ledger h).debtors.erase i) := moves_pushBack
  refine ⟨pushBack_inv hinv hk hi, fun j hj => hm.unharmed ?_ (List.mem_erase_of_ne hj),
    mt hm.owes_iff.mp hinv.debtors_nodup.not_mem_erase⟩
  rw [hk.1]
  exact fun heq => hj (Option.some.inj heq).symm

/-- A failed replacement settles what `i` owed. -/
theorem forfeits {op : PoolOp} {r : PoolResp op} {s : PoolState} {h : Log Caller}
    (hinv : PoolInv n s h) (hi : Owes i h) (ho : Own h i op r ((ledger h).debtors.erase i))
    (hfail : replacementFailed op r = true) :
    PoolInv n s (h ++ [⟨⟨op, r⟩, i⟩]) ∧ (∀ j, j ≠ i → Unharmed j h (h ++ [⟨⟨op, r⟩, i⟩])) ∧
      ¬ Owes i (h ++ [⟨⟨op, r⟩, i⟩]) := by
  refine ⟨ho.inv hinv (hinv.debtors_nodup.erase i) ?_,
    fun j hj => ho.unharmed hj (List.mem_erase_of_ne hj),
    mt ho.owes_iff.mp hinv.debtors_nodup.not_mem_erase⟩
  have hpos : 0 < (ledger h).debtors.length := List.length_pos_of_mem hi
  rw [failedReplacements_of_failed hfail, List.length_erase_of_mem hi]
  omega

theorem leads_openRwSession (slot : Slot) : Leads n i (.openRwSession slot) (Owes i) fun r h =>
    match r with
    | .ok k => Has i k h
    | .error _ => ¬ Owes i h := by
  intro s h r s' hinv hi hx _
  cases r with
  | error err =>
      obtain rfl := hx
      exact forfeits hinv hi (.of_none rfl rfl fun k hop => by cases hop) rfl
  | ok k =>
      obtain ⟨rfl, rfl⟩ := hx
      have hm : Moves h i (.openRwSession slot) (.ok s.next) s.next (some i) (ledger h).debtors :=
        moves_openRwSession slot
      obtain ⟨hfree, hclean⟩ := hinv.unopened s.next (Nat.le_refl _)
      refine ⟨openRwSession_inv slot hinv, fun j hj => hm.unharmed ?_ Iff.rfl,
        hm.holds_self hclean, hm.owes_iff.mpr hi⟩
      rw [hfree]
      exact fun hnone => by cases hnone

theorem leads_login (pin : String) : Leads n i (.login k pin) (Has i k) fun r h =>
    match r with
    | .ok _ => Has i k h
    | .error _ => ¬ Owes i h := by
  rintro s h r s' hinv ⟨hk, hi⟩ hx _
  cases r with
  | error err =>
      obtain rfl := hx
      refine forfeits hinv hi ⟨rfl, (fun l hop => by cases hop), ?_⟩ rfl
      rintro l ⟨e, he, -⟩
      obtain ⟨rfl, -⟩ := Prod.mk.inj (Option.some.inj he)
      exact hk.1
  | ok u =>
      obtain rfl := hx
      have ho : Own h i (.login k pin) (.ok u) (ledger h).debtors :=
        .of_none rfl rfl fun l hop => by cases hop
      refine ⟨ho.inv hinv hinv.debtors_nodup ?_, fun j hj => ho.unharmed hj Iff.rfl,
        ho.holds hk (not_spoils_of_none rfl k), ho.owes_iff.mpr hi⟩
      rw [failedReplacements_of_ok rfl]

/-! ### The searches -/

theorem leads_findObjects (objectClass : ObjectClass) (label : Bytes) :
    Leads n i (.findObjects k objectClass label) (Has i k) fun r h =>
      KeysAnswered (.findObjects k objectClass label) r ∧ Has i k h := by
  have hown : ∀ r l e, sessionError (.findObjects k objectClass label) r = some (l, e) → l = k := by
    intro r l e he
    cases r with
    | ok handles => cases he
    | error err => exact (Prod.mk.inj (Option.some.inj he)).1.symm
  intro s h r s' hinv hi hx hkeys
  obtain ⟨hinv', hothers, howes, hholds⟩ := leads_operation rfl hown s h r s' hinv hi hx hkeys
  refine ⟨hinv', hothers, hkeys, hholds ?_, howes⟩
  rintro ⟨e, he, huncertain⟩
  cases r with
  | ok handles => cases he
  | error err =>
      obtain ⟨-, rfl⟩ := Prod.mk.inj (Option.some.inj he)
      cases objectClass with
      | privateKey =>
          obtain ⟨handle, hok⟩ := hkeys
          cases hok
      | publicKey =>
          rw [hkeys err rfl] at huncertain
          cases huncertain

/-! ### The programs -/

variable {t : PoolState × Log Caller}

/-- What `acquire` leaves. -/
def Acquired (i : Caller) (r : Except HsmError Session) (h : Log Caller) : Prop :=
  match r with
  | .ok k => Has i k h
  | .error _ => ¬ Owes i h

/-- A call that is done owes nothing. -/
def Settled {β : Type} (i : Caller) (_ : β) (h : Log Caller) : Prop := ¬ Owes i h

theorem acquire_safe (turns : Nat) (hi : ¬ Owes i t.2) :
    Safe (poolLogic Caller n) (fun r u => Acquired i r u.2) i (acquire turns) t := by
  induction turns generalizing t with
  | zero =>
      refine leads_popFront.safe kept_settled hi fun r u _ hr => ?_
      cases r with
      | none => exact safe_return kept_settled hr
      | some k => exact safe_return kept_has hr
  | succ turns ih =>
      refine leads_popFront.safe kept_settled hi fun r u _ hr => ?_
      cases r with
      | some k => exact safe_return kept_has hr
      | none =>
          refine leads_waitTimeout.safe kept_settled hr fun wakeup v _ hv => ?_
          show Safe _ _ i (if wakeup.timedOut && wakeup.isEmpty then
            .ret (.error .poolExhausted) else acquire turns) v
          split
          · exact safe_return kept_settled hv
          · exact ih hv

theorem release_safe (hk : Has i k t.2) :
    Safe (poolLogic Caller n) (fun r u => Settled i r u.2) i (release k) t :=
  leads_pushBack.safe kept_has hk fun _ _ _ hu => safe_return kept_settled hu

theorem evictAndReplenish_safe (pool : SessionPool) (hi : Owes i t.2) :
    Safe (poolLogic Caller n) (fun r u => Settled i r u.2) i (evictAndReplenish pool) t := by
  refine (leads_openRwSession pool.slot).safe kept_owes hi fun r u _ hr => ?_
  cases r with
  | error err => exact safe_return kept_settled hr
  | ok k =>
      refine (leads_login pool.pin).safe kept_has hr fun r v _ hv => ?_
      cases r with
      | error err =>
          exact leads_closeSession_settled.safe kept_settled hv fun _ _ _ hw =>
            safe_return kept_settled hw
      | ok _ => exact release_safe hv

omit [DecidableEq Caller] in
theorem handleOperationFailure_eq (pool : SessionPool) (e : HsmError) :
    handleOperationFailure pool k e =
      if e.uncertain then closeSession k >>= fun _ => evictAndReplenish pool else release k := by
  cases e <;> rfl

/-- The failed session is returned when it is sound, else replaced. -/
theorem handleOperationFailure_safe (pool : SessionPool) {e : HsmError} (hi : Owes i t.2)
    (hk : e.uncertain = false → Holds i k t.2) :
    Safe (poolLogic Caller n) (fun r u => Settled i r u.2) i (handleOperationFailure pool k e) t := by
  rw [handleOperationFailure_eq]
  split
  · exact leads_closeSession_owes.safe kept_owes hi fun _ _ _ hu => evictAndReplenish_safe pool hu
  · rename_i hcertain
    exact release_safe ⟨hk (Bool.eq_false_iff.mpr hcertain), hi⟩

/-- A private key is found, on a session as good as before. -/
def Found (i : Caller) (k : Session) (objectClass : ObjectClass)
    (r : Except HsmError ObjectHandle) (h : Log Caller) : Prop :=
  (objectClass = .privateKey → ∃ handle, r = .ok handle) ∧ Has i k h

theorem kept_found {objectClass : ObjectClass} {r : Except HsmError ObjectHandle}
    (hr : objectClass = .privateKey → ∃ handle, r = .ok handle) :
    Kept i (Found i k objectClass r) :=
  fun h h' hi hu => ⟨hr, kept_has h h' hi.2 hu⟩

theorem findKey_safe (key : KeyRef) (objectClass : ObjectClass) (hk : Has i k t.2) :
    Safe (poolLogic Caller n) (fun r u => Found i k objectClass r u.2) i
      (findKey k key objectClass) t := by
  refine (leads_findObjects objectClass _).safe kept_has hk fun r u _ hr => ?_
  obtain ⟨hkeys, hhas⟩ := hr
  -- every other answer than one handle is excluded for a private key
  have hother : ∀ x : Except HsmError ObjectHandle,
      (∀ handle : ObjectHandle, r ≠ .ok [handle]) →
      Safe (poolLogic Caller n) (fun r u => Found i k objectClass r u.2) i (.ret x) u := by
    intro x hne
    have hclass : objectClass = .privateKey → ∃ handle, x = .ok handle := by
      rintro rfl
      obtain ⟨handle, hok⟩ := hkeys
      exact absurd hok (hne handle)
    exact safe_return (kept_found hclass) ⟨hclass, hhas⟩
  rcases r with err | handles
  · exact hother _ fun handle heq => by cases heq
  · rcases handles with _ | ⟨handle, _ | ⟨handle', rest⟩⟩
    · exact hother _ fun handle heq => by cases heq
    · exact safe_return (kept_found fun _ => ⟨handle, rfl⟩) ⟨fun _ => ⟨handle, rfl⟩, hhas⟩
    · exact hother _ fun handle heq => by cases heq

/-- What a call does with the answer of its last operation. -/
def Handled {γ : Type} (pool : SessionPool) (k : Session) (e : Option (Session × HsmError))
    (p : PoolProg (Except HsmError γ)) : Prop :=
  (e = none ∧ ∃ b, p = release k >>= fun _ => .ret b) ∨
    ∃ err, e = some (k, err) ∧ p = handleOperationFailure pool k err >>= fun _ => .ret (.error err)

/-- The last operation of a call: its answer decides what becomes of the
session. -/
theorem operation_safe {γ : Type} {op : PoolOp} (pool : SessionPool) (hop : op.still = true)
    {f : PoolResp op → PoolProg (Except HsmError γ)}
    (hf : ∀ r, Handled pool k (sessionError op r) (f r)) (hk : Has i k t.2) :
    Safe (poolLogic Caller n) (fun r u => Settled i r u.2) i (.call op f) t := by
  have hown : ∀ r l e, sessionError op r = some (l, e) → l = k := by
    intro r l e he
    rcases hf r with ⟨hnone, -⟩ | ⟨err, hsome, -⟩
    · rw [hnone] at he
      cases he
    · rw [hsome] at he
      exact (Prod.mk.inj (Option.some.inj he)).1.symm
  refine (leads_operation hop hown).safe kept_has hk fun r u hu hr => ?_
  obtain ⟨hi, hholds⟩ := hr
  rcases hf r with ⟨hnone, b, heq⟩ | ⟨err, hsome, heq⟩ <;> rw [heq]
  · have hclean : ¬ Spoils ⟨op, r⟩ k := not_spoils_of_none hnone k
    exact Logic.safe_bind hu (release_safe ⟨hholds hclean, hi⟩) fun _ v _ hv =>
      safe_return kept_settled hv
  · have hcertain : err.uncertain = false → Holds i k u.2 := by
      intro hfalse
      refine hholds ?_
      rintro ⟨e, he, htrue⟩
      obtain ⟨-, rfl⟩ := Prod.mk.inj (Option.some.inj (hsome.symm.trans he))
      rw [hfalse] at htrue
      cases htrue
    exact Logic.safe_bind hu (handleOperationFailure_safe pool hi hcertain) fun _ v _ hv =>
      safe_return kept_settled hv

theorem signDigest_safe (pool : SessionPool) (turns : Nat) (key : KeyRef)
    (mechanism : SigningMechanism) (digest : Bytes) (hinv : PoolInv n t.1 t.2)
    (hi : ¬ Owes i t.2) : Safe (poolLogic Caller n) (fun r u => Settled i r u.2) i
      (pool.signDigest turns key mechanism digest) t := by
  refine Logic.safe_bind hinv (acquire_safe turns hi) fun r u hu hr => ?_
  cases r with
  | error e => exact safe_return kept_settled hr
  | ok k =>
      refine Logic.safe_bind hu (findKey_safe key .privateKey hr) fun r v hv hr => ?_
      obtain ⟨hfound, hhas⟩ := hr
      obtain ⟨handle, rfl⟩ := hfound rfl
      have hop : (PoolOp.sign k (toCryptokiMechanism mechanism) handle digest).still = true := rfl
      refine operation_safe pool hop (fun r => ?_) hhas
      cases r with
      | ok raw => exact Or.inl ⟨rfl, .ok raw, rfl⟩
      | error err => exact Or.inr ⟨mapError err, rfl, rfl⟩

theorem publicKey_safe (pool : SessionPool) (turns : Nat) (key : KeyRef)
    (hinv : PoolInv n t.1 t.2) (hi : ¬ Owes i t.2) :
    Safe (poolLogic Caller n) (fun r u => Settled i r u.2) i (pool.publicKey turns key) t := by
  refine Logic.safe_bind hinv (acquire_safe turns hi) fun r u hu hr => ?_
  cases r with
  | error e => exact safe_return kept_settled hr
  | ok k =>
      refine Logic.safe_bind hu (findKey_safe key .publicKey hr) fun r v hv hr => ?_
      obtain ⟨-, hhas⟩ := hr
      cases r with
      | error e =>
          exact Logic.safe_bind hv (release_safe hhas) fun _ w _ hw => safe_return kept_settled hw
      | ok handle =>
          have hop : (PoolOp.getAttributes k handle [.ecPoint]).still = true := rfl
          refine operation_safe pool hop (fun r => ?_) hhas
          cases r with
          | ok values => exact Or.inl ⟨rfl, _, rfl⟩
          | error err => exact Or.inr ⟨mapError err, rfl, rfl⟩

theorem calls_safe {pool : SessionPool} {p : PoolProg (Except HsmError Bytes)}
    (hp : Calls Caller pool i p) (hinv : PoolInv n t.1 t.2) (hi : ¬ Owes i t.2) :
    Safe (poolLogic Caller n) (fun r u => Settled i r u.2) i p t := by
  obtain ⟨turns, call, rfl⟩ := hp
  cases call with
  | signDigest key mechanism digest => exact signDigest_safe pool turns key mechanism digest hinv hi
  | publicKey key => exact publicKey_safe pool turns key hinv hi

end Call

/-! ## Runs -/

/-- **Conservation and hygiene.** In every run where the searches for keys end
well, a pool nobody is using holds all its sessions but those that could not
be replaced, and no session came back after an error that left it uncertain. -/
theorem pool_conserved {n : Nat} {pool : SessionPool} {h : Log Caller}
    {c : Config (poolWorld Caller n) (Except HsmError Bytes)}
    (hc : History (poolWorld Caller n) (Calls Caller pool) h c)
    (hkeys : ∀ e ∈ h, KeysAnswered e.op e.answer) :
    (NoCallInProgress c → c.state.sessions.length + failedReplacements h = n) ∧
      NeverPutBack h := by
  have hanswered : History ((poolWorld Caller n).restrict fun _ op _ r _ => KeysAnswered op r)
      (Calls Caller pool) h ⟨c.state, c.procs⟩ := hc.restrict fun e he _ _ => hkeys e he
  obtain ⟨hinv, hok⟩ := Logic.reachable_safe (poolLogic Caller n)
    (fun i r u => Settled i r u.2) (fun i p hp s hs hi => calls_safe hp hs hi)
    hanswered.recording
  refine ⟨fun hidle => ?_, hinv.neverPutBack⟩
  have hsettled : ∀ i, ¬ Owes i h := by
    intro i
    have hi := hok i
    cases hproc : c.procs i with
    | none =>
        rw [hproc] at hi
        exact hi
    | some p =>
        obtain ⟨r, rfl⟩ := hidle i p hproc
        rw [hproc] at hi
        exact hi (c.state, h) ⟨fun _ hk => hk, Iff.rfl⟩ hinv
  have hnil : (ledger h).debtors = [] := List.eq_nil_iff_forall_not_mem.mpr hsettled
  have hbalance := hinv.balance
  rw [hnil] at hbalance
  exact hbalance

end

/-! ### Three calls -/

/-- A token that answers every search and every signature the same. -/
def answering (found : Except Error (List ObjectHandle)) (signed : Except Error Bytes) :
    (op : PoolOp) → PoolState → PoolResp op × PoolState
  | .newContext _, s => (.ok (), s)
  | .initializeContext, s => (.ok (), s)
  | .getSlotsWithInitializedToken, s => (.ok [], s)
  | .getTokenInfo _, s => (.ok .unavailable, s)
  | .getMechanismList _, s => (.ok [.ecdsa], s)
  | .openRwSession _, s => (.ok s.next, { s with next := s.next + 1 })
  | .login _ _, s => (.ok (), s)
  | .closeSession _, s => ((), s)
  | .findObjects _ _ _, s => (found, s)
  | .sign _ _ _ _, s => (signed, s)
  | .getAttributes _ _ _, s => (.ok [], s)
  | .popFront, s => (s.sessions.head?, { s with sessions := s.sessions.tail })
  | .waitTimeout, s => (⟨true, s.sessions.isEmpty⟩, s)
  | .pushBack session, s => ((), { s with sessions := s.sessions ++ [session] })

theorem answering_allowed {Caller : Type} {n : Nat} {i : Caller}
    (found : Except Error (List ObjectHandle)) (signed : Except Error Bytes) (op : PoolOp)
    (s : PoolState) : (poolWorld Caller n).exec i op s (answering found signed op s).1
      (answering found signed op s).2 := by
  cases op <;> first | rfl | exact ⟨rfl, rfl⟩

theorem trace_answered (handle : ObjectHandle) (signed : Except Error Bytes)
    (p : PoolProg (Except HsmError Bytes)) (s : PoolState) :
    ∀ e ∈ (p.trace (answering (.ok [handle]) signed) s).map fun a =>
      (⟨a, 0⟩ : Executed Nat PoolResp), KeysAnswered e.op e.answer := by
  intro e he
  obtain ⟨⟨op, r⟩, hact, rfl⟩ := List.mem_map.mp he
  obtain ⟨t, hr⟩ : ∃ t, r = (answering (.ok [handle]) signed op t).1 := Prog.mem_trace hact
  subst hr
  cases op with
  | findObjects session objectClass label =>
      cases objectClass with
      | privateKey => exact ⟨handle, rfl⟩
      | publicKey => exact fun err herr => by cases herr
  | _ => trivial

/-- One session, and one call that runs alone. -/
theorem exists_single (found : Except Error (List ObjectHandle)) (signed : Except Error Bytes)
    (pool : SessionPool) (turns : Nat) (call : PoolCall) :
    ∃ c, History (poolWorld Nat 1) (Calls Nat pool)
        (((call.prog pool turns).trace (answering found signed) ⟨[0], 1⟩).map fun a => ⟨a, 0⟩) c ∧
      c.state = ((call.prog pool turns).run (answering found signed) ⟨[0], 1⟩).2 ∧
      NoCallInProgress c := by
  have hinit : History (poolWorld Nat 1) (Calls Nat pool) [] ⟨⟨[0], 1⟩, fun _ => none⟩ := .init
  obtain ⟨c, hc, hstate, hprocs⟩ :=
    hinit.alone (answering_allowed found signed) rfl ⟨turns, call, rfl⟩
  refine ⟨c, hc, hstate, ?_⟩
  intro i p hp
  rw [hprocs] at hp
  by_cases hi : i = 0
  · subst hi
    rw [Function.update_self] at hp
    exact ⟨_, (Option.some.inj hp).symm⟩
  · rw [Function.update_of_ne hi] at hp
    cases hp

def samplePool : SessionPool := ⟨0, "0000"⟩

def absentKey : KeyRef := ⟨"cle-qui-nexiste-pas"⟩

def sampleSignature : PoolCall := .signDigest absentKey .ecdsaP256Sha256 (List.replicate 32 0)

/-- The session is lost during the signature, and replaced. -/
theorem lost_session_replaced :
    ∃ h c, History (poolWorld Nat 1) (Calls Nat samplePool) h c ∧ c.state = ⟨[1], 2⟩ ∧
      c.state.sessions.length + failedReplacements h = 1 ∧ NeverPutBack h := by
  obtain ⟨c, hc, hstate, hidle⟩ := exists_single (.ok [7])
    (.error (.pkcs11 .sessionHandleInvalid)) samplePool 1 sampleSignature
  refine ⟨_, c, hc, hstate, ?_⟩
  have hkeys := trace_answered 7 (.error (.pkcs11 .sessionHandleInvalid))
    (sampleSignature.prog samplePool 1) ⟨[0], 1⟩
  obtain ⟨hconserved, hclean⟩ := pool_conserved hc hkeys
  exact ⟨hconserved hidle, hclean⟩

/-- A signature with an absent key empties the pool, and a public key on a
lost session puts it back. -/
theorem search_breaks_pool :
    (∃ h c, History (poolWorld Nat 1) (Calls Nat samplePool) h c ∧ NoCallInProgress c ∧
      c.state.sessions = [] ∧ failedReplacements h = 0) ∧
    ∃ h c, History (poolWorld Nat 1) (Calls Nat samplePool) h c ∧ NoCallInProgress c ∧
      c.state.sessions = [0] ∧ Spoiled h 0 ∧ ¬ NeverPutBack h := by
  constructor
  · obtain ⟨c, hc, hstate, hidle⟩ :=
      exists_single (.ok []) (.ok []) samplePool 1 sampleSignature
    exact ⟨_, c, hc, hidle, by rw [hstate]; rfl, rfl⟩
  · obtain ⟨c, hc, hstate, hidle⟩ :=
      exists_single (.error (.pkcs11 .sessionHandleInvalid)) (.ok []) samplePool 1
        (.publicKey absentKey)
    have hspoils : Spoils ⟨.findObjects 0 .publicKey (Json.octetsOf absentKey.label),
        (.error (.pkcs11 .sessionHandleInvalid) : Except Error (List ObjectHandle))⟩ 0 :=
      ⟨.sessionLost, rfl, rfl⟩
    refine ⟨_, c, hc, hidle, by rw [hstate]; rfl,
      ⟨⟨_, 0⟩, List.mem_cons_of_mem _ List.mem_cons_self, hspoils⟩, ?_⟩
    intro hclean
    refine hclean [_, _] ⟨⟨.pushBack 0, ()⟩, 0⟩ [] 0 rfl rfl ?_
    exact ⟨⟨_, 0⟩, List.mem_cons_of_mem _ List.mem_cons_self, hspoils⟩

end ZeroSecret.Hsm
