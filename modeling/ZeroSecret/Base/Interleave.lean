import Mathlib.Logic.Function.Basic

/-!
# Interleaved callers over one shared state

A *program* is a resumption: finished, or stopped before one operation with
what it does for each answer. Any number of callers run programs against one
shared state; a scheduler picks which caller's pending operation executes
next. An operation's effect is a relation, so failures, lost replies and
random answers are all answers the relation allows; a caller that is never
picked again has crashed.

`Safe` is the rely–guarantee assertion of a residual program and
`Logic.reachable_safe` the rule that discharges it once for every
interleaving: only sequential obligations are left, one per operation.
-/

namespace Interleave

/-- A program over operations `Op` answered in `Resp`. -/
inductive Prog (Op : Type) (Resp : Op → Type) (α : Type) where
  | ret (a : α)
  | call (op : Op) (k : Resp op → Prog Op Resp α)

variable {Op : Type} {Resp : Op → Type} {α β : Type}

namespace Prog

def bind : Prog Op Resp α → (α → Prog Op Resp β) → Prog Op Resp β
  | .ret a, f => f a
  | .call op k, f => .call op fun r => (k r).bind f

instance : Monad (Prog Op Resp) where
  pure := .ret
  bind := .bind

/-- Perform one operation and return its answer. -/
def perform (op : Op) : Prog Op Resp (Resp op) := .call op .ret

@[simp] theorem pure_eq (a : α) : (pure a : Prog Op Resp α) = .ret a := rfl

@[simp] theorem ret_bind (a : α) (f : α → Prog Op Resp β) :
    (Prog.ret a >>= f) = f a := rfl

@[simp] theorem call_bind (op : Op) (k : Resp op → Prog Op Resp α)
    (f : α → Prog Op Resp β) :
    (Prog.call op k >>= f) = .call op fun r => k r >>= f := rfl

@[simp] theorem perform_bind (op : Op) (f : Resp op → Prog Op Resp β) :
    ((perform op : Prog Op Resp _) >>= f) = .call op f := rfl

/-- Run alone, every operation answered by a state transformer. -/
def run {σ : Type} (answer : (op : Op) → σ → Resp op × σ) :
    Prog Op Resp α → σ → α × σ
  | .ret a, s => (a, s)
  | .call op k, s => (k (answer op s).1).run answer (answer op s).2

theorem run_bind {σ : Type} (answer : (op : Op) → σ → Resp op × σ) (p : Prog Op Resp α)
    (f : α → Prog Op Resp β) (s : σ) :
    (p >>= f).run answer s = (f (p.run answer s).1).run answer (p.run answer s).2 := by
  induction p generalizing s with
  | ret a => rfl
  | call op k ih => exact ih _ _

/-- `p` issues `op` in some run whose earlier operations got answers that
`allowed` permits. -/
inductive Issues (allowed : (op : Op) → Resp op → Prop) :
    Prog Op Resp α → Op → Prop
  | here (op : Op) (k : Resp op → Prog Op Resp α) : Issues allowed (.call op k) op
  | later {op op' : Op} {k : Resp op' → Prog Op Resp α} (r : Resp op')
      (hr : allowed op' r) (h : Issues allowed (k r) op) :
      Issues allowed (.call op' k) op

theorem not_issues_ret {allowed : (op : Op) → Resp op → Prop} {a : α} {op : Op} :
    ¬ Issues allowed (.ret a : Prog Op Resp α) op := by
  intro h
  cases h

theorem issues_call_iff {allowed : (op : Op) → Resp op → Prop} {op op' : Op}
    {k : Resp op' → Prog Op Resp α} :
    Issues allowed (.call op' k) op ↔
      op = op' ∨ ∃ r, allowed op' r ∧ Issues allowed (k r) op := by
  constructor
  · intro h
    cases h with
    | here => exact Or.inl rfl
    | later r hr h => exact Or.inr ⟨r, hr, h⟩
  · rintro (rfl | ⟨r, hr, h⟩)
    · exact .here _ _
    · exact .later r hr h

end Prog

/-! ## Rely–guarantee -/

/-- The shared state and what each operation may do to it. The caller is an
argument so that the state may record who did what. -/
structure World (Caller Op : Type) (Resp : Op → Type) where
  State : Type
  init : State
  exec : Caller → (op : Op) → State → Resp op → State → Prop

variable {Caller : Type}

/-- What is proved about the state: an invariant, what the callers other than
`i` may do behind `i`'s back, and what holds of `i` before it starts. -/
structure Logic (W : World Caller Op Resp) where
  Inv : W.State → Prop
  Rely : Caller → W.State → W.State → Prop
  Pre : Caller → W.State → Prop
  inv_init : Inv W.init
  pre_init : ∀ i, Pre i W.init
  rely_refl : ∀ i s, Rely i s s
  rely_trans : ∀ i {s t u}, Rely i s t → Rely i t u → Rely i s u
  pre_stable : ∀ i {s t}, Pre i s → Rely i s t → Pre i t

/-- A residual program of caller `i` is safe in `s`: however long the others
run first, each operation keeps the invariant, stays within what every other
caller relies on, and leaves a safe residue; the result satisfies `Post`. -/
def Safe {W : World Caller Op Resp} (L : Logic W) (Post : α → W.State → Prop) (i : Caller) :
    Prog Op Resp α → W.State → Prop
  | .ret a, s => ∀ t, L.Rely i s t → L.Inv t → Post a t
  | .call op k, s => ∀ t, L.Rely i s t → L.Inv t → ∀ r u, W.exec i op t r u →
      L.Inv u ∧ (∀ j, j ≠ i → L.Rely j t u) ∧ Safe L Post i (k r) u

namespace Logic

variable {W : World Caller Op Resp} {L : Logic W} {Post : Caller → α → W.State → Prop}

theorem safe_stable {i : Caller} {Q : α → W.State → Prop} {p : Prog Op Resp α}
    {s t : W.State} (h : Safe L Q i p s) (hst : L.Rely i s t) : Safe L Q i p t := by
  cases p with
  | ret a => exact fun u hu => h u (L.rely_trans i hst hu)
  | call op k => exact fun u hu => h u (L.rely_trans i hst hu)

/-! ### Rules for programs -/

section Rules

variable {i : Caller} {Q : α → W.State → Prop} {s : W.State}

/-- Stable under what the other callers may do. -/
def Stable (L : Logic W) (i : Caller) (A : W.State → Prop) : Prop :=
  ∀ s t, A s → L.Rely i s t → A t

theorem safe_ret {a : α} (hstable : L.Stable i (Q a)) (h : Q a s) :
    Safe L Q i (.ret a) s :=
  fun t ht _ => hstable s t h ht

/-- Sequencing: the result of the first program, with what it establishes,
starts the second. -/
theorem safe_bind {Q' : β → W.State → Prop} {p : Prog Op Resp β} {f : β → Prog Op Resp α}
    (hinv : L.Inv s) (hp : Safe L Q' i p s)
    (hf : ∀ b t, L.Inv t → Q' b t → Safe L Q i (f b) t) : Safe L Q i (p >>= f) s := by
  induction p generalizing s with
  | ret b => exact hf b s hinv (hp s (L.rely_refl i s) hinv)
  | call op k ih =>
      intro t ht hit r u hx
      obtain ⟨hiu, hrely, hk⟩ := hp t ht hit r u hx
      exact ⟨hiu, hrely, ih r hiu hk⟩

/-- An operation that leaves the state alone, alone: from a stable assertion
it establishes what its answers imply there. -/
theorem safe_perform {op : Op} {A : W.State → Prop} {B : Resp op → W.State → Prop}
    (hread : ∀ t r u, W.exec i op t r u → u = t) (hA : L.Stable i A)
    (hB : ∀ r, L.Stable i (B r)) (h : A s)
    (hans : ∀ r t, L.Inv t → A t → W.exec i op t r t → B r t) :
    Safe L B i (.perform op) s := by
  intro t ht hit r u hx
  obtain rfl := hread t r u hx
  exact ⟨hit, fun j _ => L.rely_refl j u,
    safe_ret (hB r) (hans r u hit (hA s u h ht) hx)⟩

end Rules

/-- Where a caller stands: not started, or at a safe residue. -/
def CallerOk (L : Logic W) (Post : Caller → α → W.State → Prop) (s : W.State)
    (i : Caller) : Option (Prog Op Resp α) → Prop
  | none => L.Pre i s
  | some p => Safe L (Post i) i p s

theorem callerOk_stable {i : Caller} {o : Option (Prog Op Resp α)} {s t : W.State}
    (h : CallerOk L Post s i o) (hst : L.Rely i s t) : CallerOk L Post t i o := by
  cases o with
  | none => exact L.pre_stable i h hst
  | some p => exact safe_stable h hst

end Logic

/-- A safe program that is left alone keeps the invariant and establishes its
postcondition. -/
theorem safe_run {W : World Caller Op Resp} {L : Logic W} {i : Caller}
    {Q : α → W.State → Prop} {answer : (op : Op) → W.State → Resp op × W.State}
    (hanswer : ∀ op s, W.exec i op s (answer op s).1 (answer op s).2) {p : Prog Op Resp α}
    {s : W.State} (h : Safe L Q i p s) (hinv : L.Inv s) :
    L.Inv (p.run answer s).2 ∧ Q (p.run answer s).1 (p.run answer s).2 := by
  induction p generalizing s with
  | ret a => exact ⟨hinv, h s (L.rely_refl i s) hinv⟩
  | call op k ih =>
      obtain ⟨hinv', -, hnext⟩ := h s (L.rely_refl i s) hinv _ _ (hanswer op s)
      exact ih _ hnext hinv'

/-! ## Configurations and runs -/

/-- One moment of a run: the state, and where every caller stands. `none` is
a caller that has not started. -/
structure Config (W : World Caller Op Resp) (α : Type) where
  state : W.State
  procs : Caller → Option (Prog Op Resp α)

variable [DecidableEq Caller]

/-- A caller starts a program it may start, or a pending operation executes. -/
inductive Step (W : World Caller Op Resp) (entry : Caller → Prog Op Resp α → Prop) :
    Config W α → Config W α → Prop
  | spawn {c : Config W α} (i : Caller) (p : Prog Op Resp α)
      (hi : c.procs i = none) (hp : entry i p) :
      Step W entry c ⟨c.state, Function.update c.procs i (some p)⟩
  | exec {c : Config W α} (i : Caller) {op : Op} {k : Resp op → Prog Op Resp α}
      {r : Resp op} {s' : W.State} (hi : c.procs i = some (.call op k))
      (hx : W.exec i op c.state r s') :
      Step W entry c ⟨s', Function.update c.procs i (some (k r))⟩

inductive Reachable (W : World Caller Op Resp)
    (entry : Caller → Prog Op Resp α → Prop) : Config W α → Prop
  | init : Reachable W entry ⟨W.init, fun _ => none⟩
  | step {c c' : Config W α} (hc : Reachable W entry c) (h : Step W entry c c') :
      Reachable W entry c'

/-! ### A caller that is left alone -/

/-- Caller `i` executes some of its operations, nobody else moves. -/
inductive Runs (W : World Caller Op Resp) (i : Caller) :
    Prog Op Resp α → W.State → Prog Op Resp α → W.State → Prop
  | refl (p : Prog Op Resp α) (s : W.State) : Runs W i p s p s
  | step {op : Op} {k : Resp op → Prog Op Resp α} {r : Resp op} {s s' s'' : W.State}
      {p : Prog Op Resp α} (hx : W.exec i op s r s') (h : Runs W i (k r) s' p s'') :
      Runs W i (.call op k) s p s''

omit [DecidableEq Caller] in
/-- Allowed answers give a run to the end. -/
theorem runs_run {W : World Caller Op Resp} {i : Caller}
    {answer : (op : Op) → W.State → Resp op × W.State}
    (h : ∀ op s, W.exec i op s (answer op s).1 (answer op s).2) (p : Prog Op Resp α)
    (s : W.State) : Runs W i p s (.ret (p.run answer s).1) (p.run answer s).2 := by
  induction p generalizing s with
  | ret a => exact .refl _ _
  | call op k ih => exact .step (h op s) (ih _ _)

namespace Runs

variable {W : World Caller Op Resp} {i : Caller} {s u : W.State}

omit [DecidableEq Caller] in
theorem of_ret {a b : α} (h : Runs W i (.ret a) s (.ret b) u) : a = b ∧ u = s := by
  cases h with
  | refl => exact ⟨rfl, rfl⟩

omit [DecidableEq Caller] in
theorem of_call {op : Op} {k : Resp op → Prog Op Resp α} {b : α}
    (h : Runs W i (.call op k) s (.ret b) u) :
    ∃ r t, W.exec i op s r t ∧ Runs W i (k r) t (.ret b) u := by
  cases h with
  | step hx h => exact ⟨_, _, hx, h⟩

omit [DecidableEq Caller] in
/-- A run of two programs is a run of the first and one of the second. -/
theorem of_bind {p : Prog Op Resp β} {f : β → Prog Op Resp α} {b : α}
    (h : Runs W i (p >>= f) s (.ret b) u) :
    ∃ a t, Runs W i p s (.ret a) t ∧ Runs W i (f a) t (.ret b) u := by
  induction p generalizing s with
  | ret a => exact ⟨a, s, .refl _ _, h⟩
  | call op k ih =>
      obtain ⟨r, t, hx, h⟩ := of_call h
      obtain ⟨a, t', hfirst, hlater⟩ := ih r h
      exact ⟨a, t', .step hx hfirst, hlater⟩

end Runs

theorem reachable_runs {W : World Caller Op Resp} {entry : Caller → Prog Op Resp α → Prop}
    {c : Config W α} (hc : Reachable W entry c) {i : Caller} {p p' : Prog Op Resp α}
    {s' : W.State} (hi : c.procs i = some p) (h : Runs W i p c.state p' s') :
    Reachable W entry ⟨s', Function.update c.procs i (some p')⟩ := by
  obtain ⟨state, procs⟩ := c
  simp only at hi h
  induction h generalizing procs with
  | refl p s =>
      have hp : Function.update procs i (some p) = procs := by
        rw [← hi, Function.update_eq_self]
      rwa [hp]
  | step hx h ih =>
      have hnext := ih _ (.step hc (.exec i hi hx)) (Function.update_self i _ procs)
      rwa [Function.update_idem] at hnext

/-- A caller that starts and is left alone with answering services runs to its
end. -/
theorem reachable_alone {W : World Caller Op Resp} {entry : Caller → Prog Op Resp α → Prop}
    {i : Caller} {answer : (op : Op) → W.State → Resp op × W.State}
    (h : ∀ op s, W.exec i op s (answer op s).1 (answer op s).2) {c : Config W α}
    (hc : Reachable W entry c) (hi : c.procs i = none) {p : Prog Op Resp α} (hp : entry i p) :
    ∃ c' : Config W α, Reachable W entry c' ∧ c'.state = (p.run answer c.state).2 ∧
      c'.procs i = some (.ret (p.run answer c.state).1) ∧
      ∀ j, j ≠ i → c'.procs j = c.procs j := by
  have hspawn := Reachable.step hc (Step.spawn i p hi hp)
  have hrun := reachable_runs hspawn (Function.update_self i _ _) (runs_run h p c.state)
  rw [Function.update_idem] at hrun
  exact ⟨_, hrun, rfl, Function.update_self i _ _, fun j hj => Function.update_of_ne hj _ _⟩

namespace Logic

variable {W : World Caller Op Resp} {entry : Caller → Prog Op Resp α → Prop}
  {L : Logic W} {Post : Caller → α → W.State → Prop}

/-- One step keeps the invariant and every caller's assertion. -/
theorem step_safe (hentry : ∀ i p, entry i p → ∀ s, L.Inv s → L.Pre i s →
      Safe L (Post i) i p s)
    {c c' : Config W α} (hinv : L.Inv c.state)
    (hok : ∀ i, CallerOk L Post c.state i (c.procs i)) (h : Step W entry c c') :
    L.Inv c'.state ∧ ∀ i, CallerOk L Post c'.state i (c'.procs i) := by
  cases h with
  | spawn i p hi hp =>
      refine ⟨hinv, fun j => ?_⟩
      by_cases hj : j = i
      · subst hj
        have hpre : L.Pre j c.state := by
          have := hok j
          rwa [hi] at this
        simpa [CallerOk] using hentry j p hp c.state hinv hpre
      · simpa [Function.update_of_ne hj] using hok j
  | @exec i op k r s' hi hx =>
      have hsafe : Safe L (Post i) i (.call op k) c.state := by
        have := hok i
        rwa [hi] at this
      obtain ⟨hinv', hrely, hk⟩ :=
        hsafe c.state (L.rely_refl i c.state) hinv r s' hx
      refine ⟨hinv', fun j => ?_⟩
      by_cases hj : j = i
      · subst hj
        simpa [CallerOk] using hk
      · simpa [Function.update_of_ne hj] using callerOk_stable (hok j) (hrely j hj)

variable (L Post)

/-- **The interleaving rule.** If every program a caller may start is safe
from every state of the invariant, then in every reachable configuration the
invariant holds and every caller stands at a safe residue. -/
theorem reachable_safe (hentry : ∀ i p, entry i p → ∀ s, L.Inv s → L.Pre i s →
      Safe L (Post i) i p s)
    {c : Config W α} (hc : Reachable W entry c) :
    L.Inv c.state ∧ ∀ i, CallerOk L Post c.state i (c.procs i) := by
  induction hc with
  | init => exact ⟨L.inv_init, fun i => L.pre_init i⟩
  | step _ hstep ih => exact step_safe hentry ih.1 ih.2 hstep

/-- What a finished caller returned satisfies its postcondition. -/
theorem reachable_post (hentry : ∀ i p, entry i p → ∀ s, L.Inv s → L.Pre i s →
      Safe L (Post i) i p s)
    {c : Config W α} (hc : Reachable W entry c) {i : Caller} {a : α}
    (hi : c.procs i = some (.ret a)) : Post i a c.state := by
  obtain ⟨hinv, hok⟩ := reachable_safe L Post hentry hc
  have h : Safe L (Post i) i (.ret a) c.state := by
    have := hok i
    rwa [hi] at this
  exact h c.state (L.rely_refl i c.state) hinv

end Logic

end Interleave
