/-!
# Computations that may fail

Peeling `Except` blocks apart without unfolding the monad.
-/

namespace Fallible

variable {ε α β : Type}

/-- A missing value is an error. -/
def okOr (reason : ε) : Option α → Except ε α
  | some a => .ok a
  | none => .error reason

@[simp] theorem okOr_some (reason : ε) (a : α) : okOr reason (some a) = .ok a := rfl

@[simp] theorem okOr_none (reason : ε) : okOr reason (none : Option α) = .error reason := rfl

theorem okOr_eq_ok {reason : ε} {o : Option α} {a : α} (h : okOr reason o = .ok a) :
    o = some a := by
  cases o with
  | none => cases h
  | some b => rw [Except.ok.inj h]

@[simp] theorem ok_bind (a : α) (g : α → Except ε β) : (Except.ok a >>= g) = g a := rfl

@[simp] theorem error_bind (e : ε) (g : α → Except ε β) :
    ((.error e : Except ε α) >>= g) = .error e := rfl

/-- A block that succeeds succeeded at its first step, and went on from there. -/
theorem bind_eq_ok {m : Except ε α} {g : α → Except ε β} {b : β}
    (h : (m >>= g) = .ok b) : ∃ a, m = .ok a ∧ g a = .ok b := by
  cases m with
  | error e => cases h
  | ok a => exact ⟨a, rfl, h⟩

theorem bind_eq_ok_iff {m : Except ε α} {g : α → Except ε β} {b : β} :
    (m >>= g) = .ok b ↔ ∃ a, m = .ok a ∧ g a = .ok b := by
  constructor
  · exact bind_eq_ok
  · rintro ⟨a, rfl, h⟩
    exact h

/-- A test whose failure is an error. -/
def require (b : Bool) (reason : ε) : Except ε Unit :=
  if b then .ok () else .error reason

/-- A block that starts with a test. -/
theorem require_bind_eq_ok_iff {b : Bool} {reason : ε} {g : Unit → Except ε β} {r : β} :
    (require b reason >>= g) = .ok r ↔ b = true ∧ g () = .ok r := by
  cases b <;> simp [require]

theorem okOr_bind_eq_ok_iff {reason : ε} {o : Option α} {g : α → Except ε β} {r : β} :
    (okOr reason o >>= g) = .ok r ↔ ∃ a, o = some a ∧ g a = .ok r := by
  cases o <;> simp

/-- A block whose first step only changes the error. -/
theorem mapError_bind_eq_ok_iff {ε' : Type} {f : ε → ε'} {x : Except ε α}
    {g : α → Except ε' β} {b : β} :
    (x.mapError f >>= g) = .ok b ↔ ∃ a, x = .ok a ∧ g a = .ok b := by
  cases x with
  | error e => exact ⟨fun h => (by cases h), fun ⟨_, h, _⟩ => (by cases h)⟩
  | ok a =>
      constructor
      · intro h
        exact ⟨a, rfl, h⟩
      · rintro ⟨a', ha, h⟩
        rw [Except.ok.inj ha]
        exact h

/-- A block whose first step is made on a condition. -/
theorem ite_bind_eq_ok_iff {p : Prop} [Decidable p] {x : Except ε Unit}
    {g : Unit → Except ε β} {r : β} :
    (if p then x >>= g else g ()) = .ok r ↔ (p → x = .ok ()) ∧ g () = .ok r := by
  by_cases hp : p
  · rw [if_pos hp, bind_eq_ok_iff]
    constructor
    · rintro ⟨⟨⟩, hx, h⟩
      exact ⟨fun _ => hx, h⟩
    · rintro ⟨hx, h⟩
      exact ⟨(), hx hp, h⟩
  · rw [if_neg hp]
    exact ⟨fun h => ⟨fun hp' => absurd hp' hp, h⟩, And.right⟩

theorem toOption_eq_some {x : Except ε α} {a : α} (h : x.toOption = some a) : x = .ok a := by
  cases x with
  | error e => cases h
  | ok b => rw [Option.some.inj h]

/-- A map over a list whose every element succeeds. -/
theorem mapM_ok {f : α → Except ε β} {g : α → β} :
    ∀ {xs : List α}, (∀ x ∈ xs, f x = .ok (g x)) → xs.mapM f = .ok (xs.map g)
  | [], _ => rfl
  | x :: xs, h => by
      have hx : f x = .ok (g x) := h x List.mem_cons_self
      have ih : xs.mapM f = .ok (xs.map g) :=
        mapM_ok fun y hy => h y (List.mem_cons_of_mem x hy)
      rw [List.mapM_cons, hx, ok_bind, ih]
      rfl

theorem mapM_eq_ok_forall {f : α → Except ε β} :
    ∀ {xs : List α} {ys : List β}, xs.mapM f = .ok ys → ∀ x ∈ xs, ∃ y, f x = .ok y
  | [], _, _ => fun x hx => absurd hx (List.not_mem_nil)
  | x :: xs, ys, h => by
      rw [List.mapM_cons] at h
      obtain ⟨y, hy, h⟩ := bind_eq_ok h
      obtain ⟨ys', hys, _⟩ := bind_eq_ok h
      intro z hz
      rcases List.mem_cons.mp hz with rfl | hz
      · exact ⟨y, hy⟩
      · exact mapM_eq_ok_forall hys z hz

theorem mapM_length {f : α → Except ε β} :
    ∀ {xs : List α} {ys : List β}, xs.mapM f = .ok ys → ys.length = xs.length
  | [], ys, h => by
      rw [List.mapM_nil] at h
      rw [← Except.ok.inj h]
      rfl
  | x :: xs, ys, h => by
      rw [List.mapM_cons] at h
      obtain ⟨y, _, h⟩ := bind_eq_ok h
      obtain ⟨ys', hys, h⟩ := bind_eq_ok h
      rw [← Except.ok.inj h, List.length_cons, List.length_cons, mapM_length hys]

/-! ## Success alone

Whether a block succeeds, when what it computes does not matter. -/

def Succeeds (x : Except ε α) : Prop := ∃ a, x = .ok a

theorem succeeds_ok (a : α) : Succeeds (.ok a : Except ε α) := ⟨a, rfl⟩

theorem succeeds_okOr_iff {reason : ε} {o : Option α} :
    Succeeds (okOr reason o) ↔ ∃ a, o = some a := by
  constructor
  · rintro ⟨a, h⟩
    exact ⟨a, okOr_eq_ok h⟩
  · rintro ⟨a, rfl⟩
    exact succeeds_ok a

theorem succeeds_bind_iff {m : Except ε α} {g : α → Except ε β} :
    Succeeds (m >>= g) ↔ ∃ a, m = .ok a ∧ Succeeds (g a) := by
  constructor
  · rintro ⟨b, h⟩
    obtain ⟨a, ha, hg⟩ := bind_eq_ok h
    exact ⟨a, ha, b, hg⟩
  · rintro ⟨a, rfl, hg⟩
    exact hg

/-- The rest of a block often succeeds or not whatever its first step
computed. -/
theorem succeeds_bind_and {m : Except ε α} {g : α → Except ε β} {p : Prop}
    (h : ∀ a, Succeeds (g a) ↔ p) : Succeeds (m >>= g) ↔ Succeeds m ∧ p := by
  rw [succeeds_bind_iff]
  constructor
  · rintro ⟨a, ha, hg⟩
    exact ⟨⟨a, ha⟩, (h a).mp hg⟩
  · rintro ⟨⟨a, ha⟩, hp⟩
    exact ⟨a, ha, (h a).mpr hp⟩

theorem succeeds_mapM_iff {f : α → Except ε β} {xs : List α} :
    Succeeds (xs.mapM f) ↔ ∀ x ∈ xs, Succeeds (f x) := by
  constructor
  · rintro ⟨ys, h⟩
    exact mapM_eq_ok_forall h
  · intro h
    induction xs with
    | nil => exact succeeds_ok []
    | cons x xs ih =>
        obtain ⟨y, hy⟩ := h x List.mem_cons_self
        obtain ⟨ys, hys⟩ := ih fun z hz => h z (List.mem_cons_of_mem x hz)
        rw [List.mapM_cons, hy, ok_bind, hys, ok_bind]
        exact succeeds_ok _

/-! ## Failures alone -/

/-- Every error `x` can end in satisfies `Q`. -/
def FailsWith (Q : ε → Prop) (x : Except ε α) : Prop := ∀ e, x = .error e → Q e

theorem failsWith_ok (Q : ε → Prop) (a : α) : FailsWith Q (.ok a) := by
  intro e h
  cases h

theorem failsWith_okOr {Q : ε → Prop} {reason : ε} (h : Q reason) (o : Option α) :
    FailsWith Q (okOr reason o) := by
  cases o with
  | none =>
      intro e he
      exact Except.error.inj he ▸ h
  | some a => exact failsWith_ok Q a

theorem failsWith_require {Q : ε → Prop} {reason : ε} (h : Q reason) (b : Bool) :
    FailsWith Q (require b reason) := by
  cases b with
  | true => exact failsWith_ok Q ()
  | false =>
      intro e he
      exact Except.error.inj he ▸ h

theorem failsWith_mapError {ε' : Type} {Q : ε' → Prop} {f : ε → ε'} (h : ∀ e, Q (f e))
    (x : Except ε α) : FailsWith Q (x.mapError f) := by
  cases x with
  | error e =>
      intro e' he
      exact Except.error.inj he ▸ h e
  | ok a => exact failsWith_ok Q a

theorem failsWith_bind {Q : ε → Prop} {m : Except ε α} {g : α → Except ε β}
    (hm : FailsWith Q m) (hg : ∀ a, FailsWith Q (g a)) : FailsWith Q (m >>= g) := by
  cases m with
  | error e' =>
      intro e he
      exact hm e (congrArg Except.error (Except.error.inj he))
  | ok a => exact hg a

theorem failsWith_mapM {Q : ε → Prop} {f : α → Except ε β} (hf : ∀ a, FailsWith Q (f a))
    (xs : List α) : FailsWith Q (xs.mapM f) := by
  induction xs with
  | nil => exact failsWith_ok Q []
  | cons x xs ih =>
      rw [List.mapM_cons]
      exact failsWith_bind (hf x) fun y => failsWith_bind ih fun ys => failsWith_ok Q _

/-! ## Values alone -/

/-- Every value `x` can end in satisfies `Q`. -/
def OkOnly (Q : α → Prop) (x : Except ε α) : Prop := ∀ a, x = .ok a → Q a

theorem okOnly_error {Q : α → Prop} (e : ε) : OkOnly Q (.error e : Except ε α) := by
  intro a h
  cases h

theorem okOnly_ok {Q : α → Prop} {a : α} (h : Q a) : OkOnly Q (.ok a : Except ε α) := by
  intro b hb
  rwa [← Except.ok.inj hb]

end Fallible
