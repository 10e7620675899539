import Mathlib.Logic.Relation
import ZeroSecret.Base.History

/-!
# Operations under a guard

A program keeps a guard when each of its operations meets a condition on the
acts it has performed before, whatever it was answered. In a history every act
then stands behind the acts of its own caller that its guard asks for
(`History.guarded`), however the other callers moved in between.
-/

namespace Interleave

variable {Caller Op : Type} {Resp : Op → Type} {α β : Type}

/-- Behind the acts `past`, every operation meets `G` and the result `Q`. -/
def Prog.Guarded (G : List (Act Resp) → Op → Prop) (Q : List (Act Resp) → α → Prop) :
    List (Act Resp) → Prog Op Resp α → Prop
  | past, .ret a => Q past a
  | past, .call op k => G past op ∧ ∀ r, (k r).Guarded G Q (past ++ [⟨op, r⟩])

namespace Prog

variable {G : List (Act Resp) → Op → Prop} {Q : List (Act Resp) → α → Prop}

theorem guarded_bind {Q' : List (Act Resp) → β → Prop} {p : Prog Op Resp β}
    {f : β → Prog Op Resp α} {past : List (Act Resp)} (hp : p.Guarded G Q' past)
    (hf : ∀ past' b, Q' past' b → (f b).Guarded G Q past') : (p >>= f).Guarded G Q past := by
  induction p generalizing past with
  | ret b => exact hf past b hp
  | call op k ih => exact ⟨hp.1, fun r => ih r (hp.2 r)⟩

/-- A path of a guarded program leads to a guarded program. -/
theorem Guarded.of_performs {p q : Prog Op Resp α} {past l : List (Act Resp)}
    (hp : p.Guarded G Q past) (h : Performs p l q) : q.Guarded G Q (past ++ l) := by
  induction h generalizing past with
  | refl p => rwa [List.append_nil]
  | step r h ih =>
      have hnext := ih (hp.2 r)
      rwa [List.append_assoc] at hnext

end Prog

/-- The last element of a list is behind a given place, or at it. -/
theorem snoc_eq_append_cons {ι : Type} {l before after : List ι} {x y : ι}
    (h : l ++ [x] = before ++ y :: after) :
    (after = [] ∧ x = y ∧ l = before) ∨ ∃ after', after = after' ++ [x] ∧
      l = before ++ y :: after' := by
  rcases List.eq_nil_or_concat after with rfl | ⟨after', z, rfl⟩
  · obtain ⟨hl, hx⟩ := List.append_inj' h rfl
    exact Or.inl ⟨rfl, List.head_eq_of_cons_eq hx, hl⟩
  · right
    have h' : l ++ [x] = (before ++ y :: after') ++ [z] := by simpa using h
    obtain ⟨hl, hx⟩ := List.append_inj' h' rfl
    obtain rfl := List.head_eq_of_cons_eq hx
    exact ⟨after', List.concat_eq_append, hl⟩

namespace History

variable [DecidableEq Caller] {W : World Caller Op Resp}
  {entry : Caller → Prog Op Resp α → Prop} {h : List (Executed Caller Resp)} {c : Config W α}
  {G : Caller → List (Act Resp) → Op → Prop} {Q : Caller → List (Act Resp) → α → Prop}

/-- Where a caller stands is guarded behind its own acts. -/
theorem guarded_procs (hentry : ∀ i p, entry i p → p.Guarded (G i) (Q i) [])
    (hc : History W entry h c) {i : Caller} {q : Prog Op Resp α} (hi : c.procs i = some q) :
    q.Guarded (G i) (Q i) (ownActs i h) := by
  obtain ⟨p, hp, hperf⟩ := hc.performs hi
  exact (hentry i p hp).of_performs hperf

/-- **Every act of a history meets its guard.** -/
theorem guarded (hentry : ∀ i p, entry i p → p.Guarded (G i) (Q i) [])
    (hc : History W entry h c) {before after : List (Executed Caller Resp)}
    {e : Executed Caller Resp} (hh : h = before ++ e :: after) :
    G e.caller (ownActs e.caller before) e.op := by
  induction hc generalizing after with
  | init => exact absurd hh (by simp)
  | spawn _ _ _ _ _ ih => exact ih hh
  | exec hc i hi hx ih =>
      rcases snoc_eq_append_cons hh with ⟨rfl, rfl, rfl⟩ | ⟨after', rfl, hbefore⟩
      · exact (guarded_procs hentry hc hi).1
      · exact ih hbefore

/-- What a finished caller returned, behind its acts. -/
theorem guarded_ret (hentry : ∀ i p, entry i p → p.Guarded (G i) (Q i) [])
    (hc : History W entry h c) {i : Caller} {a : α} (hi : c.procs i = some (.ret a)) :
    Q i (ownActs i h) a :=
  guarded_procs hentry hc hi

/-- The execution up to an act, and the step of the act. -/
theorem split (hc : History W entry h c) {before after : List (Executed Caller Resp)}
    {e : Executed Caller Resp} (hh : h = before ++ e :: after) :
    ∃ s s', Execution W before s ∧ W.exec e.caller e.op s e.answer s' := by
  induction hc generalizing after with
  | init => exact absurd hh (by simp)
  | spawn _ _ _ _ _ ih => exact ih hh
  | exec hc i hi hx ih =>
      rcases snoc_eq_append_cons hh with ⟨rfl, rfl, rfl⟩ | ⟨after', rfl, hbefore⟩
      · exact ⟨_, _, hc.executes, hx⟩
      · exact ih hbefore

end History

/-! ### From one moment of a run to a later one -/

section Later

variable [DecidableEq Caller] {W : World Caller Op Resp}
  {entry : Caller → Prog Op Resp α → Prop} {c c' : Config W α}

theorem Reachable.later (hc : Reachable W entry c)
    (h : Relation.ReflTransGen (Step W entry) c c') : Reachable W entry c' := by
  induction h with
  | refl => exact hc
  | tail _ hstep ih => exact .step ih hstep

/-- What every operation extends, from a reachable state on, is extended by a run. -/
theorem Reachable.extends {R : W.State → W.State → Prop} (hrefl : ∀ s, R s s)
    (htrans : ∀ {s t u}, R s t → R t u → R s u)
    (hexec : ∀ {c : Config W α} {i op r u}, Reachable W entry c → W.exec i op c.state r u →
      R c.state u)
    (hc : Reachable W entry c) (h : Relation.ReflTransGen (Step W entry) c c') :
    R c.state c'.state := by
  induction h with
  | refl => exact hrefl _
  | tail hsteps hstep ih =>
      refine htrans ih ?_
      cases hstep with
      | spawn i p hi hp => exact hrefl _
      | exec i hi hx => exact hexec (hc.later hsteps) hx

/-- A caller that is left alone goes from here to its end. -/
theorem later_runs {i : Caller} {p p' : Prog Op Resp α} {s' : W.State}
    (hi : c.procs i = some p) (h : Runs W i p c.state p' s') :
    Relation.ReflTransGen (Step W entry) c ⟨s', Function.update c.procs i (some p')⟩ := by
  obtain ⟨state, procs⟩ := c
  simp only at hi h
  induction h generalizing procs with
  | refl p s =>
      have hp : Function.update procs i (some p) = procs := by
        rw [← hi, Function.update_eq_self]
      rw [hp]
  | step hx h ih =>
      have hnext := ih _ (Function.update_self i _ procs)
      rw [Function.update_idem] at hnext
      exact .head (.exec i hi hx) hnext

theorem later_alone {i : Caller} {answer : (op : Op) → W.State → Resp op × W.State}
    (h : ∀ op s, W.exec i op s (answer op s).1 (answer op s).2) (hi : c.procs i = none)
    {p : Prog Op Resp α} (hp : entry i p) :
    Relation.ReflTransGen (Step W entry) c ⟨(p.run answer c.state).2,
      Function.update c.procs i (some (.ret (p.run answer c.state).1))⟩ := by
  have hrun : Relation.ReflTransGen (Step W entry) _ _ :=
    later_runs (c := ⟨c.state, Function.update c.procs i (some p)⟩) (Function.update_self i _ _)
      (runs_run h p c.state)
  rw [Function.update_idem] at hrun
  exact .head (.spawn i p hi hp) hrun

end Later

/-! ### One caller after the other -/

section Sequential

variable {W : World Nat Op Resp} {entry : Nat → Prog Op Resp α → Prop} (progs : Nat → Prog Op Resp α)
  (answer : Nat → (op : Op) → W.State → Resp op × W.State)

/-- What the first `n` callers do, each in its turn. -/
def actsOf (n : Nat) : List (Executed Nat Resp) :=
  (List.range n).flatMap fun i => (traceOf progs answer i).map fun a => ⟨a, i⟩

theorem History.actsOf (hprogs : ∀ n, entry n (progs n))
    (hanswer : ∀ n op s, W.exec n op s (answer n op s).1 (answer n op s).2) (n : Nat) :
    ∃ c, History W entry (Interleave.actsOf progs answer n) c ∧
      c.state = stateAfter progs answer n ∧
      c.procs = fun i => if i < n then some (.ret (resultOf progs answer i)) else none := by
  induction n with
  | zero => exact ⟨_, .init, rfl, by simp⟩
  | succ n ih =>
      obtain ⟨c, hc, hstate, hprocs⟩ := ih
      obtain ⟨c', hc', hstate', hprocs'⟩ :=
        hc.alone (hanswer n) (by rw [hprocs]; simp) (hprogs n)
      refine ⟨c', ?_, by rw [hstate', hstate]; rfl, ?_⟩
      · rw [Interleave.actsOf, List.range_succ, List.flatMap_append, List.flatMap_singleton]
        rw [hstate] at hc'
        exact hc'
      · rw [hprocs', hprocs, hstate]
        funext i
        by_cases hi : i = n
        · subst hi
          rw [Function.update_self, if_pos (Nat.lt_succ_self i)]
          rfl
        · rw [Function.update_of_ne hi]
          by_cases hlt : i < n
          · rw [if_pos hlt, if_pos (Nat.lt_succ_of_lt hlt)]
          · have hle : ¬ i < n + 1 := fun h => (Nat.lt_succ_iff_lt_or_eq.mp h).elim hlt hi
            rw [if_neg hlt, if_neg hle]

end Sequential

end Interleave
