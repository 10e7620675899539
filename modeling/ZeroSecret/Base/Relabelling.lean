import ZeroSecret.Base.History

/-!
# Relabelled histories

A relabelling turns operations into operations and answers into answers. Where
the programs of the callers and the operations of the world both go along with
it, it turns histories into histories (`History.relabel`): every caller then
stands where it stood, up to the relabelling, and what it has returned is
related to what it returned. Taken for a relabelling that changes a secret and
for equality of results, this is the independence of the results from the
secret.
-/

namespace Interleave

variable {Caller Op : Type} {Resp : Op → Type} {α β α' β' : Type}

structure Relabelling (Resp : Op → Type) where
  op : Op → Op
  answer : (o : Op) → Resp o → Resp (op o)

namespace Relabelling

variable (f : Relabelling Resp)

def act (a : Act Resp) : Act Resp := ⟨f.op a.op, f.answer a.op a.answer⟩

def executed (e : Executed Caller Resp) : Executed Caller Resp := ⟨f.act e.toAct, e.caller⟩

/-- The second program does what the first one does, relabelled, and returns a
related result. -/
inductive Mirrors (R : α → β → Prop) : Prog Op Resp α → Prog Op Resp β → Prop
  | ret {a : α} {b : β} (h : R a b) : Mirrors R (.ret a) (.ret b)
  | call (op : Op) {k : Resp op → Prog Op Resp α} {k' : Resp (f.op op) → Prog Op Resp β}
      (h : ∀ r, Mirrors R (k r) (k' (f.answer op r))) : Mirrors R (.call op k) (.call (f.op op) k')

/-- The operations of the world, in the states that are relabelled. -/
structure Follows (W : World Caller Op Resp) (onState : W.State → W.State) : Prop where
  init : onState W.init = W.init
  exec : ∀ {i op s r s'}, W.exec i op s r s' →
    W.exec i (f.op op) (onState s) (f.answer op r) (onState s')

variable {f}

theorem Mirrors.bind {R : α → β → Prop} {R' : α' → β' → Prop} {p : Prog Op Resp α}
    {q : Prog Op Resp β} {g : α → Prog Op Resp α'} {g' : β → Prog Op Resp β'}
    (hp : f.Mirrors R p q) (hg : ∀ a b, R a b → f.Mirrors R' (g a) (g' b)) :
    f.Mirrors R' (p >>= g) (q >>= g') := by
  induction hp with
  | ret h => exact hg _ _ h
  | call op _ ih => exact .call op ih

/-- Where a caller stands and where it stands relabelled. -/
inductive Beside (R : α → β → Prop) : Option (Prog Op Resp α) → Option (Prog Op Resp β) → Prop
  | idle : Beside R none none
  | running {p : Prog Op Resp α} {q : Prog Op Resp β} (h : f.Mirrors R p q) :
      Beside R (some p) (some q)

/-- What mirrors a finished program is finished. -/
theorem Mirrors.of_ret {R : α → β → Prop} {a : α} {q : Prog Op Resp β}
    (h : f.Mirrors R (.ret a) q) : ∃ b, q = .ret b ∧ R a b := by
  cases h with
  | ret h => exact ⟨_, rfl, h⟩

theorem Beside.of_ret {R : α → β → Prop} {a : α} {o : Option (Prog Op Resp β)}
    (h : Beside (f := f) R (some (.ret a)) o) : ∃ b, o = some (.ret b) ∧ R a b := by
  cases h with
  | running h =>
      obtain ⟨b, rfl, hR⟩ := h.of_ret
      exact ⟨b, rfl, hR⟩

end Relabelling

variable [DecidableEq Caller]

/-- **A relabelled history is a history.** -/
theorem History.relabel {W : World Caller Op Resp} {entry : Caller → Prog Op Resp α → Prop}
    {f : Relabelling Resp} {R : α → α → Prop} {onState : W.State → W.State}
    (hW : f.Follows W onState)
    (hentry : ∀ i p, entry i p → ∃ q, entry i q ∧ f.Mirrors R p q)
    {h : List (Executed Caller Resp)} {c : Config W α} (hc : History W entry h c) :
    ∃ c', History W entry (h.map f.executed) c' ∧ c'.state = onState c.state ∧
      ∀ i, Relabelling.Beside (f := f) R (c.procs i) (c'.procs i) := by
  induction hc with
  | init => exact ⟨⟨W.init, fun _ => none⟩, .init, hW.init.symm, fun _ => .idle⟩
  | @spawn h c hc i p hi hp ih =>
      obtain ⟨c', hc', hstate, hbeside⟩ := ih
      obtain ⟨q, hq, hpq⟩ := hentry i p hp
      have hidle : c'.procs i = none := by
        have hb := hbeside i
        rw [hi] at hb
        generalize c'.procs i = o at hb
        cases hb
        rfl
      refine ⟨_, .spawn hc' i q hidle hq, hstate, fun j => ?_⟩
      by_cases hj : j = i
      · subst hj
        simp only [Function.update_self]
        exact .running hpq
      · simpa only [Function.update_of_ne hj] using hbeside j
  | @exec h c hc i op k r s' hi hx ih =>
      obtain ⟨c', hc', hstate, hbeside⟩ := ih
      obtain ⟨k', hk', hmirror⟩ : ∃ k', c'.procs i = some (.call (f.op op) k') ∧
          ∀ r, f.Mirrors R (k r) (k' (f.answer op r)) := by
        have hb := hbeside i
        rw [hi] at hb
        generalize c'.procs i = o at hb
        cases hb with
        | running hpq =>
            cases hpq with
            | call _ h => exact ⟨_, rfl, h⟩
      have hx' : W.exec i (f.op op) c'.state (f.answer op r) (onState s') := by
        rw [hstate]
        exact hW.exec hx
      refine ⟨⟨onState s', Function.update c'.procs i (some (k' (f.answer op r)))⟩, ?_, rfl,
        fun j => ?_⟩
      · rw [List.map_append]
        exact .exec hc' i hk' hx'
      · by_cases hj : j = i
        · subst hj
          simp only [Function.update_self]
          exact .running (hmirror r)
        · simpa only [Function.update_of_ne hj] using hbeside j

end Interleave
