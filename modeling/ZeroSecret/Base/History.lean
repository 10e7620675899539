import ZeroSecret.Base.Interleave

/-!
# Histories of interleaved callers

The same runs as `Interleave.Reachable`, with the operations written down in
the order they were executed: who, what, and the answer. A history is two
things at once. As a whole it is an execution of the world, whoever asked for
the operations (`History.executes`); seen from one caller it is a path of that
caller's program (`History.performs`). A property of a run is then proved in
two independent parts, an invariant of executions and an inversion of a
sequential program.
-/

namespace Interleave

variable {Caller Op : Type} {Resp : Op → Type} {α β : Type}

/-- An operation with its answer. -/
structure Act (Resp : Op → Type) where
  op : Op
  answer : Resp op

/-- An act and the caller it was executed for. -/
structure Executed (Caller : Type) (Resp : Op → Type) extends Act Resp where
  caller : Caller

/-! ## Paths of a program -/

/-- `p` performs the acts `l` and then stands at `q`. -/
inductive Performs : Prog Op Resp α → List (Act Resp) → Prog Op Resp α → Prop
  | refl (p : Prog Op Resp α) : Performs p [] p
  | step {op : Op} {k : Resp op → Prog Op Resp α} (r : Resp op) {l : List (Act Resp)}
      {q : Prog Op Resp α} (h : Performs (k r) l q) :
      Performs (.call op k) (⟨op, r⟩ :: l) q

namespace Performs

theorem of_ret {a b : α} {l : List (Act Resp)} (h : Performs (.ret a) l (.ret b)) :
    l = [] ∧ b = a := by
  cases h
  exact ⟨rfl, rfl⟩

/-- A program that has to ask has asked before it is finished. -/
theorem of_call {op : Op} {k : Resp op → Prog Op Resp α} {l : List (Act Resp)} {b : α}
    (h : Performs (.call op k) l (.ret b)) :
    ∃ r l', l = ⟨op, r⟩ :: l' ∧ Performs (k r) l' (.ret b) := by
  cases h with
  | step r h => exact ⟨r, _, rfl, h⟩

theorem snoc {p : Prog Op Resp α} {l : List (Act Resp)} {op : Op}
    {k : Resp op → Prog Op Resp α} (h : Performs p l (.call op k)) (r : Resp op) :
    Performs p (l ++ [⟨op, r⟩]) (k r) := by
  generalize hq : Prog.call op k = q at h
  induction h with
  | refl p =>
      subst hq
      exact .step r (.refl _)
  | step r' h ih => exact .step r' (ih hq)

/-- A finished sequence is a finished first part and a finished second. -/
theorem of_bind {p : Prog Op Resp β} {f : β → Prog Op Resp α} {l : List (Act Resp)} {b : α}
    (h : Performs (p >>= f) l (.ret b)) :
    ∃ a l₁ l₂, l = l₁ ++ l₂ ∧ Performs p l₁ (.ret a) ∧ Performs (f a) l₂ (.ret b) := by
  induction p generalizing l with
  | ret a => exact ⟨a, [], l, rfl, .refl _, h⟩
  | call op k ih =>
      obtain ⟨r, l', rfl, h'⟩ := of_call h
      obtain ⟨a, l₁, l₂, rfl, h₁, h₂⟩ := ih r h'
      exact ⟨a, ⟨op, r⟩ :: l₁, l₂, rfl, .step r h₁, h₂⟩

end Performs

/-- Every operation `p` can come to satisfies `S`. -/
def Prog.Within (S : Op → Prop) : Prog Op Resp α → Prop
  | .ret _ => True
  | .call op k => S op ∧ ∀ r, (k r).Within S

namespace Prog

theorem within_bind {S : Op → Prop} {p : Prog Op Resp β} {f : β → Prog Op Resp α}
    (hp : p.Within S) (hf : ∀ b, (f b).Within S) : (p >>= f).Within S := by
  induction p with
  | ret b => exact hf b
  | call op k ih => exact ⟨hp.1, fun r => ih r (hp.2 r)⟩

theorem Within.of_mem {S : Op → Prop} {p q : Prog Op Resp α} {l : List (Act Resp)}
    (hp : p.Within S) (h : Performs p l q) {a : Act Resp} (ha : a ∈ l) : S a.op := by
  induction h with
  | refl p => cases ha
  | step r h ih =>
      rcases List.mem_cons.mp ha with rfl | ha
      · exact hp.1
      · exact ih (hp.2 r) ha

/-- When every act satisfies `S`, the result satisfies `Q`. -/
def Ensures (S : Act Resp → Prop) (Q : α → Prop) : Prog Op Resp α → Prop
  | .ret a => Q a
  | .call op k => ∀ r, S ⟨op, r⟩ → (k r).Ensures S Q

theorem ensures_bind {S : Act Resp → Prop} {Q : α → Prop} {Q' : β → Prop} {p : Prog Op Resp β}
    {f : β → Prog Op Resp α} (hp : p.Ensures S Q') (hf : ∀ b, Q' b → (f b).Ensures S Q) :
    (p >>= f).Ensures S Q := by
  induction p with
  | ret b => exact hf b hp
  | call op k ih => exact fun r hr => ih r (hp r hr)

theorem Ensures.of_performs {S : Act Resp → Prop} {Q : α → Prop} {p : Prog Op Resp α}
    {l : List (Act Resp)} {a : α} (hp : p.Ensures S Q) (h : Performs p l (.ret a))
    (hl : ∀ act ∈ l, S act) : Q a := by
  generalize hq : Prog.ret a = q at h
  induction h with
  | refl p =>
      subst hq
      exact hp
  | step r h ih =>
      have hnext := hp r (hl _ List.mem_cons_self)
      exact ih hnext (fun act hact => hl act (List.mem_cons_of_mem _ hact)) hq

/-- Every result `p` can come to satisfies `Q`. -/
def Returns (Q : α → Prop) (p : Prog Op Resp α) : Prop := p.Ensures (fun _ => True) Q

theorem returns_bind {Q : α → Prop} {f : β → Prog Op Resp α} (hf : ∀ b, (f b).Returns Q)
    (p : Prog Op Resp β) : (p >>= f).Returns Q := by
  induction p with
  | ret b => exact hf b
  | call op k ih => exact fun r _ => ih r

theorem Returns.of_performs {Q : α → Prop} {p : Prog Op Resp α} {l : List (Act Resp)} {a : α}
    (hp : p.Returns Q) (h : Performs p l (.ret a)) : Q a :=
  Ensures.of_performs hp h fun _ _ => trivial

theorem Returns.of_runs {Q : α → Prop} {W : World Caller Op Resp} {i : Caller}
    {p q : Prog Op Resp α} {s u : W.State} {a : α} (hp : p.Returns Q) (h : Runs W i p s q u)
    (hq : q = .ret a) : Q a := by
  induction h with
  | refl p s =>
      subst hq
      exact hp
  | step hx h ih => exact ih (hp _ trivial) hq

/-- What a program does when it runs alone. -/
def trace {σ : Type} (answer : (op : Op) → σ → Resp op × σ) :
    Prog Op Resp α → σ → List (Act Resp)
  | .ret _, _ => []
  | .call op k, s => ⟨op, (answer op s).1⟩ :: (k (answer op s).1).trace answer (answer op s).2

theorem trace_bind {σ : Type} (answer : (op : Op) → σ → Resp op × σ) (p : Prog Op Resp β)
    (f : β → Prog Op Resp α) (s : σ) : (p >>= f).trace answer s =
      p.trace answer s ++ (f (p.run answer s).1).trace answer (p.run answer s).2 := by
  induction p generalizing s with
  | ret b => rfl
  | call op k ih => exact congrArg (List.cons _) (ih _ _)

theorem performs_trace {σ : Type} (answer : (op : Op) → σ → Resp op × σ) (p : Prog Op Resp α)
    (s : σ) : Performs p (p.trace answer s) (.ret (p.run answer s).1) := by
  induction p generalizing s with
  | ret a => exact .refl _
  | call op k ih => exact .step _ (ih _ _)

theorem mem_trace {σ : Type} {answer : (op : Op) → σ → Resp op × σ} {p : Prog Op Resp α} {s : σ}
    {act : Act Resp} (h : act ∈ p.trace answer s) : ∃ t, act.answer = (answer act.op t).1 := by
  induction p generalizing s with
  | ret a => cases h
  | call op k ih =>
      rcases List.mem_cons.mp h with rfl | h
      · exact ⟨s, rfl⟩
      · exact ih _ h

/-! ### Programs of a part of the world -/

variable {Op' : Type} {Resp' : Op' → Type}

/-- The same program over a larger set of operations. -/
def lift (f : Op → Op') (g : (op : Op) → Resp' (f op) → Resp op) :
    Prog Op Resp α → Prog Op' Resp' α
  | .ret a => .ret a
  | .call op k => .call (f op) fun r => (k (g op r)).lift f g

theorem within_lift {f : Op → Op'} {g : (op : Op) → Resp' (f op) → Resp op} {S : Op' → Prop}
    (hS : ∀ op, S (f op)) (p : Prog Op Resp α) : (p.lift f g).Within S := by
  induction p with
  | ret a => trivial
  | call op k ih => exact ⟨hS op, fun r => ih _⟩

/-- A lifted program performs lifted acts. -/
theorem performs_of_lift {f : Op → Op'} {g : (op : Op) → Resp' (f op) → Resp op}
    {p : Prog Op Resp α} {l : List (Act Resp')} {b : α}
    (h : Performs (p.lift f g) l (.ret b)) :
    ∃ l₀ : List (Act Resp), Performs p l₀ (.ret b) ∧
      l.map (fun a => a.op) = l₀.map (fun a => f a.op) ∧
      ∀ a ∈ l₀, ∃ r, (⟨f a.op, r⟩ : Act Resp') ∈ l ∧ g a.op r = a.answer := by
  induction p generalizing l with
  | ret a =>
      obtain ⟨rfl, rfl⟩ := Performs.of_ret h
      exact ⟨[], .refl _, rfl, fun a ha => by cases ha⟩
  | call op k ih =>
      obtain ⟨r, l', rfl, h'⟩ := Performs.of_call h
      obtain ⟨l₀, hperf, hops, hmem⟩ := ih (g op r) h'
      refine ⟨⟨op, g op r⟩ :: l₀, .step _ hperf, by simp [hops], fun a ha => ?_⟩
      rcases List.mem_cons.mp ha with rfl | ha
      · exact ⟨r, List.mem_cons_self, rfl⟩
      · obtain ⟨r', hr', hg⟩ := hmem a ha
        exact ⟨r', List.mem_cons_of_mem _ hr', hg⟩

end Prog

/-! ## Executions of a world -/

/-- The world where every step meets a condition. -/
def World.restrict (W : World Caller Op Resp)
    (S : Caller → (op : Op) → W.State → Resp op → W.State → Prop) : World Caller Op Resp where
  State := W.State
  init := W.init
  exec := fun i op s r s' => W.exec i op s r s' ∧ S i op s r s'

/-- The world whose state remembers the acts. -/
def World.recording (W : World Caller Op Resp) : World Caller Op Resp where
  State := W.State × List (Executed Caller Resp)
  init := (W.init, [])
  exec := fun i op s r s' => W.exec i op s.1 r s'.1 ∧ s'.2 = s.2 ++ [⟨⟨op, r⟩, i⟩]

/-- The world goes from its first state to `s` by the acts `h`. -/
inductive Execution (W : World Caller Op Resp) : List (Executed Caller Resp) → W.State → Prop
  | init : Execution W [] W.init
  | snoc {h : List (Executed Caller Resp)} {s s' : W.State} (hh : Execution W h s)
      (e : Executed Caller Resp) (hx : W.exec e.caller e.op s e.answer s') :
      Execution W (h ++ [e]) s'

namespace Execution

variable {W : World Caller Op Resp} {h : List (Executed Caller Resp)} {s : W.State}

/-- What holds at first and is kept by every operation holds at the end; it
may speak of the acts so far. -/
theorem invariant {I : List (Executed Caller Resp) → W.State → Prop} (hinit : I [] W.init)
    (hstep : ∀ {h t u} (e : Executed Caller Resp), I h t → W.exec e.caller e.op t e.answer u →
      I (h ++ [e]) u)
    (hh : Execution W h s) : I h s := by
  induction hh with
  | init => exact hinit
  | snoc _ e hx ih => exact hstep e ih hx

/-- What an act establishes, and every operation keeps, holds at the end. -/
theorem of_mem {A : W.State → Prop}
    (hkeep : ∀ {i op t r u}, A t → W.exec i op t r u → A u) {e : Executed Caller Resp}
    (he : e ∈ h) (hest : ∀ {t u}, W.exec e.caller e.op t e.answer u → A u)
    (hh : Execution W h s) : A s := by
  induction hh with
  | init => cases he
  | snoc hh' e' hx ih =>
      rcases List.mem_append.mp he with he | he
      · exact hkeep (ih he) hx
      · obtain rfl := List.mem_singleton.mp he
        exact hest hx

/-- Every act was executed, in a state the acts before it led to. -/
theorem exists_exec {e : Executed Caller Resp} (he : e ∈ h) (hh : Execution W h s) :
    ∃ h' t u, Execution W h' t ∧ h' ++ [e] <+: h ∧ W.exec e.caller e.op t e.answer u := by
  induction hh with
  | init => cases he
  | @snoc h t u hh' e' hx ih =>
      rcases List.mem_append.mp he with he | he
      · obtain ⟨h', t', u', ht', hpre, hx'⟩ := ih he
        exact ⟨h', t', u', ht', hpre.trans (List.prefix_append _ _), hx'⟩
      · obtain rfl := List.mem_singleton.mp he
        exact ⟨h, t, u, hh', List.prefix_refl _, hx⟩

end Execution

/-! ## Histories -/

variable [DecidableEq Caller]

/-- A run with the acts it executed. -/
inductive History (W : World Caller Op Resp) (entry : Caller → Prog Op Resp α → Prop) :
    List (Executed Caller Resp) → Config W α → Prop
  | init : History W entry [] ⟨W.init, fun _ => none⟩
  | spawn {h : List (Executed Caller Resp)} {c : Config W α} (hc : History W entry h c)
      (i : Caller) (p : Prog Op Resp α) (hi : c.procs i = none) (hp : entry i p) :
      History W entry h ⟨c.state, Function.update c.procs i (some p)⟩
  | exec {h : List (Executed Caller Resp)} {c : Config W α} (hc : History W entry h c)
      (i : Caller) {op : Op} {k : Resp op → Prog Op Resp α} {r : Resp op} {s' : W.State}
      (hi : c.procs i = some (.call op k)) (hx : W.exec i op c.state r s') :
      History W entry (h ++ [⟨⟨op, r⟩, i⟩]) ⟨s', Function.update c.procs i (some (k r))⟩

/-- The acts of one caller, in order. -/
def ownActs (i : Caller) (h : List (Executed Caller Resp)) : List (Act Resp) :=
  (h.filter fun e => e.caller = i).map Executed.toAct

theorem mem_of_mem_ownActs {i : Caller} {h : List (Executed Caller Resp)} {a : Act Resp}
    (ha : a ∈ ownActs i h) : (⟨a, i⟩ : Executed Caller Resp) ∈ h := by
  obtain ⟨e, hown, rfl⟩ := List.mem_map.mp ha
  obtain ⟨he, hi⟩ := List.mem_filter.mp hown
  obtain rfl := of_decide_eq_true hi
  exact he

theorem mem_ownActs {h : List (Executed Caller Resp)} {e : Executed Caller Resp} (he : e ∈ h) :
    e.toAct ∈ ownActs e.caller h :=
  List.mem_map.mpr ⟨e, List.mem_filter.mpr ⟨he, decide_eq_true rfl⟩, rfl⟩

theorem ownActs_append_self (i : Caller) (h : List (Executed Caller Resp)) (l : List (Act Resp)) :
    ownActs i (h ++ l.map fun a => ⟨a, i⟩) = ownActs i h ++ l := by
  have hall : (l.map fun a => (⟨a, i⟩ : Executed Caller Resp)).filter (fun e => e.caller = i) =
      l.map fun a => ⟨a, i⟩ := by
    refine List.filter_eq_self.mpr fun e he => ?_
    obtain ⟨a, -, rfl⟩ := List.mem_map.mp he
    exact decide_eq_true rfl
  have hid : (Executed.toAct ∘ fun a : Act Resp => (⟨a, i⟩ : Executed Caller Resp)) = id := rfl
  rw [ownActs, List.filter_append, List.map_append, hall, List.map_map, hid, List.map_id]
  rfl

theorem ownActs_append_of_ne {i j : Caller} (hij : j ≠ i) (h : List (Executed Caller Resp))
    (l : List (Act Resp)) : ownActs j (h ++ l.map fun a => ⟨a, i⟩) = ownActs j h := by
  simp [ownActs, Ne.symm hij]

theorem ownActs_snoc_self (i : Caller) (h : List (Executed Caller Resp)) (a : Act Resp) :
    ownActs i (h ++ [⟨a, i⟩]) = ownActs i h ++ [a] :=
  ownActs_append_self i h [a]

theorem ownActs_snoc_of_ne {i j : Caller} (hij : j ≠ i) (h : List (Executed Caller Resp))
    (a : Act Resp) : ownActs j (h ++ [⟨a, i⟩]) = ownActs j h :=
  ownActs_append_of_ne hij h [a]

namespace History

variable {W : World Caller Op Resp} {entry : Caller → Prog Op Resp α → Prop}
  {h : List (Executed Caller Resp)} {c : Config W α}

theorem reachable (hc : History W entry h c) : Reachable W entry c := by
  induction hc with
  | init => exact .init
  | spawn _ i p hi hp ih => exact .step ih (.spawn i p hi hp)
  | exec _ i hi hx ih => exact .step ih (.exec i hi hx)

/-- What is invariant of the recording world is a property of histories. -/
theorem recording (hc : History W entry h c) :
    Reachable W.recording entry ⟨(c.state, h), c.procs⟩ := by
  induction hc with
  | init => exact .init
  | spawn _ i p hi hp ih => exact .step ih (.spawn i p hi hp)
  | exec _ i hi hx ih => exact .step ih (.exec i hi ⟨hx, rfl⟩)

/-- Every reachable configuration has a history. -/
theorem of_reachable (hc : Reachable W entry c) : ∃ h, History W entry h c := by
  induction hc with
  | init => exact ⟨[], .init⟩
  | step _ hstep ih =>
      obtain ⟨h, hh⟩ := ih
      cases hstep with
      | spawn i p hi hp => exact ⟨h, .spawn hh i p hi hp⟩
      | exec i hi hx => exact ⟨_, .exec hh i hi hx⟩

/-- A history is an execution of the world. -/
theorem executes (hc : History W entry h c) : Execution W h c.state := by
  induction hc with
  | init => exact .init
  | spawn _ _ _ _ _ ih => exact ih
  | exec _ i _ hx ih => exact .snoc ih ⟨⟨_, _⟩, i⟩ hx

/-- Where a caller stands is where its own acts lead its program. -/
def Follows (entry : Caller → Prog Op Resp α → Prop) (i : Caller) (l : List (Act Resp)) :
    Option (Prog Op Resp α) → Prop
  | none => l = []
  | some q => ∃ p, entry i p ∧ Performs p l q

/-- **A caller's part of a history is a path of its program.** -/
theorem follows (hc : History W entry h c) (i : Caller) :
    Follows entry i (ownActs i h) (c.procs i) := by
  induction hc with
  | init => rfl
  | @spawn h c _ j p hj hp ih =>
      by_cases hij : i = j
      · subst hij
        have hnil : ownActs i h = [] := by rwa [hj] at ih
        simp only [Function.update_self, hnil]
        exact ⟨p, hp, .refl p⟩
      · simpa only [Function.update_of_ne hij] using ih
  | @exec h c _ j op k r s' hj hx ih =>
      by_cases hij : i = j
      · subst hij
        rw [hj] at ih
        obtain ⟨p, hp, hperf⟩ := ih
        simp only [Function.update_self, ownActs_snoc_self]
        exact ⟨p, hp, hperf.snoc r⟩
      · simpa only [Function.update_of_ne hij, ownActs_snoc_of_ne hij] using ih

/-- The program behind a caller, with the path it has gone. -/
theorem performs (hc : History W entry h c) {i : Caller} {q : Prog Op Resp α}
    (hi : c.procs i = some q) : ∃ p, entry i p ∧ Performs p (ownActs i h) q := by
  have hf := hc.follows i
  rwa [hi] at hf

/-- Only a caller that has started has acted. -/
theorem exists_performs_of_mem (hc : History W entry h c) {e : Executed Caller Resp}
    (he : e ∈ h) : ∃ p q, entry e.caller p ∧ c.procs e.caller = some q ∧
      Performs p (ownActs e.caller h) q := by
  have hf := hc.follows e.caller
  cases hq : c.procs e.caller with
  | none =>
      rw [hq] at hf
      exact absurd (mem_ownActs he) (by rw [show ownActs e.caller h = [] from hf]; simp)
  | some q =>
      rw [hq] at hf
      obtain ⟨p, hp, hperf⟩ := hf
      exact ⟨p, q, hp, rfl, hperf⟩

/-- Every operation of the run belongs to a program that may come to it. -/
theorem within (hc : History W entry h c) {S : Caller → Op → Prop}
    (hS : ∀ i p, entry i p → p.Within (S i)) {e : Executed Caller Resp} (he : e ∈ h) :
    S e.caller e.op := by
  obtain ⟨p, q, hp, -, hperf⟩ := hc.exists_performs_of_mem he
  exact (hS e.caller p hp).of_mem hperf (mem_ownActs he)

/-! ### Runs whose steps meet a condition -/

section Restrict

variable {S : Caller → (op : Op) → W.State → Resp op → W.State → Prop}

theorem of_restrict {c : Config (W.restrict S) α} (hc : History (W.restrict S) entry h c) :
    History W entry h ⟨c.state, c.procs⟩ := by
  induction hc with
  | init => exact .init
  | spawn _ i p hi hp ih => exact .spawn ih i p hi hp
  | exec _ i hi hx ih => exact .exec ih i hi hx.1

theorem restrict (hc : History W entry h c)
    (hS : ∀ e ∈ h, ∀ s s', S e.caller e.op s e.answer s') :
    History (W.restrict S) entry h ⟨c.state, c.procs⟩ := by
  induction hc with
  | init => exact .init
  | spawn _ i p hi hp ih => exact .spawn (ih hS) i p hi hp
  | exec _ i hi hx ih =>
      refine .exec (ih fun e he => hS e (List.mem_append_left _ he)) i hi ⟨hx, ?_⟩
      exact hS _ (List.mem_append_right _ (List.mem_singleton_self _)) _ _

end Restrict

/-- A caller that starts and is left alone with answering services runs to
its end. -/
theorem alone {i : Caller} {answer : (op : Op) → W.State → Resp op × W.State}
    (hanswer : ∀ op s, W.exec i op s (answer op s).1 (answer op s).2)
    (hc : History W entry h c) (hi : c.procs i = none) {p : Prog Op Resp α} (hp : entry i p) :
    ∃ c', History W entry (h ++ (p.trace answer c.state).map fun a => ⟨a, i⟩) c' ∧
      c'.state = (p.run answer c.state).2 ∧
      c'.procs = Function.update c.procs i (some (.ret (p.run answer c.state).1)) := by
  have hgo : ∀ (q : Prog Op Resp α) (h : List (Executed Caller Resp)) (c : Config W α),
      History W entry h c → c.procs i = some q →
      ∃ c', History W entry (h ++ (q.trace answer c.state).map fun a => ⟨a, i⟩) c' ∧
        c'.state = (q.run answer c.state).2 ∧
        c'.procs = Function.update c.procs i (some (.ret (q.run answer c.state).1)) := by
    intro q
    induction q with
    | ret a =>
        intro h c hc hq
        refine ⟨c, by simpa [Prog.trace] using hc, rfl, ?_⟩
        rw [Prog.run, ← hq, Function.update_eq_self]
    | call op k ih =>
        intro h c hc hq
        obtain ⟨c', hc', hs, hprocs⟩ := ih _ _ _
          (.exec hc i hq (hanswer op c.state)) (Function.update_self i _ c.procs)
        refine ⟨c', by simpa [Prog.trace] using hc', hs, ?_⟩
        rw [hprocs, Function.update_idem]
        rfl
  obtain ⟨c', hc', hs, hprocs⟩ :=
    hgo p h _ (.spawn hc i p hi hp) (Function.update_self i _ c.procs)
  refine ⟨c', hc', hs, ?_⟩
  rw [hprocs, Function.update_idem]

end History

/-! ## One caller after the other -/

section Sequential

variable {W : World Nat Op Resp} {entry : Nat → Prog Op Resp α → Prop} (progs : Nat → Prog Op Resp α)
  (answer : Nat → (op : Op) → W.State → Resp op × W.State)

/-- The state after the first `n` callers have run, each alone. -/
def stateAfter : Nat → W.State
  | 0 => W.init
  | n + 1 => ((progs n).run (answer n) (stateAfter n)).2

def resultOf (n : Nat) : α := ((progs n).run (answer n) (stateAfter progs answer n)).1

/-- What caller `n` does in its turn. -/
def traceOf (n : Nat) : List (Act Resp) := (progs n).trace (answer n) (stateAfter progs answer n)

theorem History.sequential (hprogs : ∀ n, entry n (progs n))
    (hanswer : ∀ n op s, W.exec n op s (answer n op s).1 (answer n op s).2) (n : Nat) :
    ∃ h c, History W entry h c ∧ c.state = stateAfter progs answer n ∧
      (c.procs = fun i => if i < n then some (.ret (resultOf progs answer i)) else none) ∧
      ∀ i < n, ownActs i h = traceOf progs answer i := by
  induction n with
  | zero => exact ⟨[], _, .init, rfl, by simp, by simp⟩
  | succ n ih =>
      obtain ⟨h, c, hc, hstate, hprocs, htrace⟩ := ih
      obtain ⟨c', hc', hstate', hprocs'⟩ :=
        hc.alone (hanswer n) (by rw [hprocs]; simp) (hprogs n)
      refine ⟨_, c', hc', by rw [hstate', hstate]; rfl, ?_, ?_⟩
      · rw [hprocs', hprocs, hstate]
        funext i
        by_cases hi : i = n
        · subst hi
          rw [Function.update_self, if_pos (Nat.lt_succ_self i)]
          rfl
        · rw [Function.update_of_ne hi]
          by_cases hlt : i < n
          · rw [if_pos hlt, if_pos (by omega)]
          · rw [if_neg hlt, if_neg (by omega)]
      · intro i hi
        rcases Nat.lt_succ_iff_lt_or_eq.mp hi with hlt | rfl
        · rw [ownActs_append_of_ne (by omega)]
          exact htrace i hlt
        · have hnone : ownActs i h = [] := by
            have hf := hc.follows i
            rw [hprocs] at hf
            simpa [Follows] using hf
          rw [ownActs_append_self, hnone, hstate]
          rfl

end Sequential

end Interleave
