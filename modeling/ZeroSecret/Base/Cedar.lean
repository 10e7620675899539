import Mathlib.Data.List.Nodup
import Mathlib.Tactic
import ZeroSecret.Base.Fallible

/-!
# Cedar: values, expressions, authorization, schemas

The part of the Cedar language that a policy made of attribute comparisons
needs, with its documented meaning: evaluation that stops at the first error,
64-bit arithmetic that errs on overflow, forbids that override permits,
policies that err being skipped, and validation of entities and requests
against a schema.

A policy's condition is an arbitrary function of the request and the entities,
so a result about every policy set covers features of the language that
`Expr` leaves out.
-/

namespace Cedar

/-! ## Values -/

structure EntityUid where
  type : String
  id : String
deriving DecidableEq

inductive Value where
  | bool (b : Bool)
  | long (i : Int64)
  | string (s : String)
  | entity (uid : EntityUid)
  | set (vs : List Value)
  | record (attrs : List (String × Value))

mutual
/-- Equality of values: sets by mutual inclusion, records by their members. -/
def Value.eqv : Value → Value → Bool
  | .bool a, .bool b => a == b
  | .long a, .long b => a == b
  | .string a, .string b => a == b
  | .entity a, .entity b => a == b
  | .set xs, .set ys => eachIn xs ys && ys.all (memberOf xs)
  | .record xs, .record ys => xs.length == ys.length && membersEqv xs ys
  | _, _ => false
/-- Every element of the first list equals one of the second. -/
def eachIn : List Value → List Value → Bool
  | [], _ => true
  | x :: xs, ys => ys.any x.eqv && eachIn xs ys
/-- Some element of the list equals the value. -/
def memberOf : List Value → Value → Bool
  | [], _ => false
  | x :: xs, y => x.eqv y || memberOf xs y
def membersEqv : List (String × Value) → List (String × Value) → Bool
  | [], _ => true
  | (k, v) :: kvs, ys => (ys.lookup k).any v.eqv && membersEqv kvs ys
end

@[simp] theorem eqv_string (a b : String) : (Value.string a).eqv (.string b) = (a == b) := by
  rw [Value.eqv]

@[simp] theorem eqv_entity (a b : EntityUid) : (Value.entity a).eqv (.entity b) = (a == b) := by
  rw [Value.eqv]

/-! ## Requests and entities -/

/-- In a list with unique keys, looking for an element's key finds it. -/
theorem find?_key {α κ : Type} [DecidableEq κ] {key : α → κ} {l : List α}
    (hn : (l.map key).Nodup) {a : α} (ha : a ∈ l) :
    l.find? (fun x => key x = key a) = some a := by
  cases hf : l.find? (fun x => key x = key a) with
  | none => exact absurd (List.find?_eq_none.mp hf a ha) (by simp)
  | some b =>
      have hb : key b = key a := by simpa using List.find?_some hf
      rw [List.inj_on_of_nodup_map hn (List.mem_of_find?_eq_some hf) ha hb]

structure Entity where
  uid : EntityUid
  attrs : List (String × Value)

/-- A store holds one entity per identifier. -/
structure Entities where
  list : List Entity
  nodup : (list.map Entity.uid).Nodup

def Entities.find? (es : Entities) (uid : EntityUid) : Option Entity :=
  es.list.find? (·.uid = uid)

theorem Entities.find?_of_mem {es : Entities} {e : Entity} (h : e ∈ es.list) :
    es.find? e.uid = some e :=
  find?_key es.nodup h

structure Request where
  principal : EntityUid
  action : EntityUid
  resource : EntityUid
  context : List (String × Value)

/-! ## Expressions -/

inductive Var where
  | principal
  | action
  | resource
  | context

inductive Expr where
  | lit (v : Value)
  | var (v : Var)
  | not (e : Expr)
  | and (a b : Expr)
  | eq (a b : Expr)
  | lessEq (a b : Expr)
  | sub (a b : Expr)
  | getAttr (e : Expr) (attr : String)
  | isEmpty (e : Expr)
  | is (e : Expr) (type : String)

/-- `a != b` abbreviates `!(a == b)`. -/
def Expr.ne (a b : Expr) : Expr := .not (.eq a b)

inductive EvalError where
  | typeError
  | entityDoesNotExist
  | attrDoesNotExist
  | arithOverflow
deriving DecidableEq

def Value.asBool : Value → Except EvalError Bool
  | .bool b => .ok b
  | _ => .error .typeError

theorem asBool_eq_ok {v : Value} {b : Bool} (h : v.asBool = .ok b) : v = .bool b := by
  cases v with
  | bool c => rw [Except.ok.inj h]
  | _ => cases h

def Value.asLong : Value → Except EvalError Int64
  | .long i => .ok i
  | _ => .error .typeError

def Value.asSet : Value → Except EvalError (List Value)
  | .set vs => .ok vs
  | _ => .error .typeError

def Value.asEntity : Value → Except EvalError EntityUid
  | .entity uid => .ok uid
  | _ => .error .typeError

/-- `checked_sub`. -/
def checkedSub (a b : Int64) : Except EvalError Int64 :=
  if -2 ^ 63 ≤ a.toInt - b.toInt ∧ a.toInt - b.toInt < 2 ^ 63 then .ok (a - b)
  else .error .arithOverflow

/-- What `checked_sub` returns is the difference. -/
theorem checkedSub_toInt {a b d : Int64} (h : checkedSub a b = .ok d) :
    d.toInt = a.toInt - b.toInt := by
  rw [checkedSub] at h
  split at h
  · rename_i hr
    rw [← Except.ok.inj h, Int64.toInt_sub]
    exact Int.bmod_eq_of_le (by omega) (by omega)
  · cases h

/-- It errs only far away from zero. -/
theorem checkedSub_error {a b : Int64} {err : EvalError} (h : checkedSub a b = .error err) :
    a.toInt - b.toInt < -2 ^ 63 ∨ 2 ^ 63 ≤ a.toInt - b.toInt := by
  rw [checkedSub] at h
  split at h
  · cases h
  · omega

def attrOf (attrs : List (String × Value)) (attr : String) : Except EvalError Value :=
  match attrs.lookup attr with
  | some v => .ok v
  | none => .error .attrDoesNotExist

def getAttr (es : Entities) (attr : String) : Value → Except EvalError Value
  | .record attrs => attrOf attrs attr
  | .entity uid =>
      match es.find? uid with
      | some e => attrOf e.attrs attr
      | none => .error .entityDoesNotExist
  | _ => .error .typeError

def Request.lookup (req : Request) : Var → Value
  | .principal => .entity req.principal
  | .action => .entity req.action
  | .resource => .entity req.resource
  | .context => .record req.context

/-- Left to right; `&&` does not look at its right side when the left is
false. -/
def evaluate (req : Request) (es : Entities) : Expr → Except EvalError Value
  | .lit v => .ok v
  | .var v => .ok (req.lookup v)
  | .not e => do
      let b ← (← evaluate req es e).asBool
      .ok (.bool !b)
  | .and a b => do
      if ← (← evaluate req es a).asBool then
        .ok (.bool (← (← evaluate req es b).asBool))
      else
        .ok (.bool false)
  | .eq a b => do
      let v ← evaluate req es a
      let w ← evaluate req es b
      .ok (.bool (v.eqv w))
  | .lessEq a b => do
      let v ← (← evaluate req es a).asLong
      let w ← (← evaluate req es b).asLong
      .ok (.bool (v ≤ w))
  | .sub a b => do
      let v ← (← evaluate req es a).asLong
      let w ← (← evaluate req es b).asLong
      .ok (.long (← checkedSub v w))
  | .getAttr e attr => do getAttr es attr (← evaluate req es e)
  | .isEmpty e => do
      let vs ← (← evaluate req es e).asSet
      .ok (.bool vs.isEmpty)
  | .is e type => do
      let uid ← (← evaluate req es e).asEntity
      .ok (.bool (uid.type == type))

/-! ### Expressions without error

`EvaluatesTo` composes: an operator whose operands evaluate evaluates. -/

section EvaluatesTo

variable {req : Request} {es : Entities} {a b e : Expr}

theorem evaluate_not : evaluate req es (.not e) = (do
    let v ← evaluate req es e
    let b ← v.asBool
    .ok (.bool !b)) := rfl

theorem evaluate_and : evaluate req es (.and a b) = (do
    let v ← evaluate req es a
    if ← v.asBool then
      let w ← evaluate req es b
      .ok (.bool (← w.asBool))
    else
      .ok (.bool false)) := rfl

theorem evaluate_eq : evaluate req es (.eq a b) = (do
    let v ← evaluate req es a
    let w ← evaluate req es b
    .ok (.bool (v.eqv w))) := rfl

theorem evaluate_lessEq : evaluate req es (.lessEq a b) = (do
    let x ← evaluate req es a
    let v ← x.asLong
    let y ← evaluate req es b
    let w ← y.asLong
    .ok (.bool (v ≤ w))) := rfl

theorem evaluate_sub : evaluate req es (.sub a b) = (do
    let x ← evaluate req es a
    let v ← x.asLong
    let y ← evaluate req es b
    let w ← y.asLong
    .ok (.long (← checkedSub v w))) := rfl

theorem evaluate_getAttr {attr : String} : evaluate req es (.getAttr e attr) = (do
    let v ← evaluate req es e
    getAttr es attr v) := rfl

theorem evaluate_isEmpty : evaluate req es (.isEmpty e) = (do
    let v ← evaluate req es e
    let vs ← v.asSet
    .ok (.bool vs.isEmpty)) := rfl

theorem evaluate_is {type : String} : evaluate req es (.is e type) = (do
    let v ← evaluate req es e
    let uid ← v.asEntity
    .ok (.bool (uid.type == type))) := rfl

def EvaluatesTo (req : Request) (es : Entities) (e : Expr) (v : Value) : Prop :=
  evaluate req es e = .ok v

theorem evaluatesTo_unique {v w : Value} (h : EvaluatesTo req es e v)
    (h' : EvaluatesTo req es e w) : v = w :=
  Except.ok.inj (h.symm.trans h')

theorem evaluatesTo_true_iff {x : Bool} (h : EvaluatesTo req es e (.bool x)) :
    EvaluatesTo req es e (.bool true) ↔ x = true := by
  constructor
  · intro h'
    exact Value.bool.inj (evaluatesTo_unique h h')
  · rintro rfl
    exact h

theorem evaluatesTo_lit (v : Value) : EvaluatesTo req es (.lit v) v := rfl

theorem evaluatesTo_var (v : Var) : EvaluatesTo req es (.var v) (req.lookup v) := rfl

theorem evaluatesTo_not {b : Bool} (h : EvaluatesTo req es e (.bool b)) :
    EvaluatesTo req es (.not e) (.bool !b) := by
  refine evaluate_not.trans ?_
  rw [h]
  rfl

/-- The right side matters only when the left side holds. -/
theorem evaluatesTo_and {x y : Bool} (ha : EvaluatesTo req es a (.bool x))
    (hb : x = true → EvaluatesTo req es b (.bool y)) :
    EvaluatesTo req es (.and a b) (.bool (x && y)) := by
  refine evaluate_and.trans ?_
  rw [ha]
  cases x with
  | false => rfl
  | true =>
      change (do
        let v ← evaluate req es b
        let c ← v.asBool
        Except.ok (Value.bool c)) = _
      rw [hb rfl]
      rfl

theorem evaluatesTo_eq {v w : Value} (ha : EvaluatesTo req es a v)
    (hb : EvaluatesTo req es b w) : EvaluatesTo req es (.eq a b) (.bool (v.eqv w)) := by
  refine evaluate_eq.trans ?_
  rw [ha, hb]
  rfl

theorem evaluatesTo_lessEq {v w : Int64} (ha : EvaluatesTo req es a (.long v))
    (hb : EvaluatesTo req es b (.long w)) :
    EvaluatesTo req es (.lessEq a b) (.bool (v ≤ w)) := by
  refine evaluate_lessEq.trans ?_
  rw [ha, hb]
  rfl

/-- **Comparing a difference with a bound** compares the integers: a difference
that overflows is above every bound, and the comparison errs. -/
theorem evaluatesTo_sub_lessEq_iff {v w u : Int64} (ha : EvaluatesTo req es a (.long v))
    (hb : EvaluatesTo req es b (.long w)) (hle : w ≤ v) :
    EvaluatesTo req es (.lessEq (.sub a b) (.lit (.long u))) (.bool true) ↔
      v.toInt - w.toInt ≤ u.toInt := by
  have hsub : evaluate req es (.sub a b) = (do
      let d ← checkedSub v w
      Except.ok (Value.long d)) := by
    rw [evaluate_sub, ha, hb]
    rfl
  rw [Int64.le_iff_toInt_le] at hle
  cases hd : checkedSub v w with
  | ok d =>
      rw [hd] at hsub
      have h := evaluatesTo_lessEq hsub (evaluatesTo_lit (.long u))
      rw [← checkedSub_toInt hd, ← Int64.le_iff_toInt_le, evaluatesTo_true_iff h,
        decide_eq_true_iff]
  | error err =>
      rw [hd] at hsub
      have hu := u.toInt_lt
      have hfar := checkedSub_error hd
      constructor
      · intro h
        have h := evaluate_lessEq.symm.trans h
        rw [hsub] at h
        cases h
      · intro h
        omega

theorem evaluatesTo_getAttr {attr : String} {v w : Value} (he : EvaluatesTo req es e v)
    (h : getAttr es attr v = .ok w) : EvaluatesTo req es (.getAttr e attr) w := by
  refine evaluate_getAttr.trans ?_
  rw [he]
  exact h

theorem evaluatesTo_isEmpty {vs : List Value} (he : EvaluatesTo req es e (.set vs)) :
    EvaluatesTo req es (.isEmpty e) (.bool vs.isEmpty) := by
  refine evaluate_isEmpty.trans ?_
  rw [he]
  rfl

theorem evaluatesTo_is {uid : EntityUid} (type : String)
    (he : EvaluatesTo req es e (.entity uid)) :
    EvaluatesTo req es (.is e type) (.bool (uid.type == type)) := by
  refine evaluate_is.trans ?_
  rw [he]
  rfl

/-- A conjunction is true exactly when both sides evaluate to true: an error
or a falsehood anywhere makes it something else. -/
theorem evaluatesTo_and_true_iff : EvaluatesTo req es (.and a b) (.bool true) ↔
    EvaluatesTo req es a (.bool true) ∧ EvaluatesTo req es b (.bool true) := by
  constructor
  · intro h
    obtain ⟨v, hv, h⟩ := Fallible.bind_eq_ok (evaluate_and.symm.trans h)
    obtain ⟨x, hx, h⟩ := Fallible.bind_eq_ok h
    cases x with
    | false => cases h
    | true =>
        obtain ⟨w, hw, h⟩ := Fallible.bind_eq_ok h
        obtain ⟨y, hy, h⟩ := Fallible.bind_eq_ok h
        rw [asBool_eq_ok hx] at hv
        obtain rfl : y = true := by simpa using h
        rw [asBool_eq_ok hy] at hw
        exact ⟨hv, hw⟩
  · rintro ⟨ha, hb⟩
    exact evaluatesTo_and ha fun _ => hb

end EvaluatesTo

/-! ## Policies -/

inductive Effect where
  | permit
  | forbid
deriving DecidableEq

structure Policy where
  id : String
  annotations : List (String × String)
  effect : Effect
  condition : Request → Entities → Except EvalError Bool

/-- The head of a policy: an entity type, one action, an entity type. -/
structure Scope where
  principalIs : String
  actionEq : EntityUid
  resourceIs : String

def Scope.toExpr (s : Scope) : Expr :=
  .and (.is (.var .principal) s.principalIs)
    (.and (.eq (.var .action) (.lit (.entity s.actionEq)))
      (.is (.var .resource) s.resourceIs))

/-- A scope always evaluates. -/
theorem evaluatesTo_scope (s : Scope) (req : Request) (es : Entities) :
    EvaluatesTo req es s.toExpr (.bool (req.principal.type == s.principalIs &&
      (req.action == s.actionEq && req.resource.type == s.resourceIs))) := by
  refine evaluatesTo_and (evaluatesTo_is _ (evaluatesTo_var .principal)) fun _ => ?_
  refine evaluatesTo_and ?_ fun _ => evaluatesTo_is _ (evaluatesTo_var .resource)
  rw [← eqv_entity]
  exact evaluatesTo_eq (evaluatesTo_var .action) (evaluatesTo_lit _)

inductive Clause where
  | when (e : Expr)
  | unless (e : Expr)

def Clause.toExpr : Clause → Expr
  | .when e => e
  | .unless e => .not e

/-- Scope first, then the clauses in order, all of them required. -/
def conditionExpr (s : Scope) (clauses : List Clause) : Expr :=
  clauses.foldl (fun e c => .and e c.toExpr) s.toExpr

def evalCondition (e : Expr) (req : Request) (es : Entities) : Except EvalError Bool := do
  (← evaluate req es e).asBool

theorem evalCondition_of_evaluatesTo {e : Expr} {req : Request} {es : Entities} {b : Bool}
    (h : EvaluatesTo req es e (.bool b)) : evalCondition e req es = .ok b := by
  rw [evalCondition, h]
  rfl

theorem evalCondition_true_iff {e : Expr} {req : Request} {es : Entities} :
    evalCondition e req es = .ok true ↔ EvaluatesTo req es e (.bool true) := by
  refine ⟨fun h => ?_, evalCondition_of_evaluatesTo⟩
  obtain ⟨v, hv, h⟩ := Fallible.bind_eq_ok h
  rwa [asBool_eq_ok h] at hv

/-- **A condition holds when its scope and every one of its clauses do.** -/
theorem conditionExpr_true_iff {s : Scope} {clauses : List Clause} {req : Request}
    {es : Entities} :
    EvaluatesTo req es (conditionExpr s clauses) (.bool true) ↔
      EvaluatesTo req es s.toExpr (.bool true) ∧
        ∀ c ∈ clauses, EvaluatesTo req es c.toExpr (.bool true) := by
  rw [conditionExpr]
  generalize s.toExpr = e
  induction clauses generalizing e with
  | nil => simp
  | cons c cs ih =>
      rw [List.foldl_cons, ih, evaluatesTo_and_true_iff, List.forall_mem_cons, and_assoc]

/-- A condition whose scope and clauses all evaluate evaluates. -/
theorem conditionExpr_evaluates {s : Scope} {clauses : List Clause} {req : Request}
    {es : Entities} (hs : ∃ b, EvaluatesTo req es s.toExpr (.bool b))
    (hc : ∀ c ∈ clauses, ∃ b, EvaluatesTo req es c.toExpr (.bool b)) :
    ∃ b, EvaluatesTo req es (conditionExpr s clauses) (.bool b) := by
  rw [conditionExpr]
  generalize s.toExpr = e at hs
  induction clauses generalizing e with
  | nil => exact hs
  | cons c cs ih =>
      obtain ⟨x, hx⟩ := hs
      obtain ⟨y, hy⟩ := hc c List.mem_cons_self
      exact ih (fun d hd => hc d (List.mem_cons_of_mem c hd)) _
        ⟨x && y, evaluatesTo_and hx fun _ => hy⟩

/-- Policy identifiers are unique in a set. -/
structure PolicySet where
  list : List Policy
  nodup : (list.map Policy.id).Nodup

def PolicySet.annotation (ps : PolicySet) (id key : String) : Option String := do
  let p ← ps.list.find? (·.id = id)
  p.annotations.lookup key

theorem PolicySet.annotation_of_mem {ps : PolicySet} {p : Policy} (h : p ∈ ps.list)
    (key : String) : ps.annotation p.id key = p.annotations.lookup key := by
  rw [PolicySet.annotation, find?_key ps.nodup h]
  rfl

inductive Decision where
  | allow
  | deny
deriving DecidableEq

/-- `reason` is a set; the list is one of its enumerations. -/
structure Response where
  decision : Decision
  reason : List String

/-- A policy that errs is not satisfied. -/
def Policy.satisfied (p : Policy) (req : Request) (es : Entities) : Bool :=
  match p.condition req es with
  | .ok b => b
  | .error _ => false

def PolicySet.satisfied (ps : PolicySet) (effect : Effect) (req : Request) (es : Entities) :
    List Policy :=
  ps.list.filter fun p => p.effect == effect && p.satisfied req es

/-- Forbids override permits, and the default is to deny. -/
def PolicySet.isAuthorized (ps : PolicySet) (req : Request) (es : Entities) : Response :=
  let forbids := ps.satisfied .forbid req es
  let permits := ps.satisfied .permit req es
  if forbids.isEmpty then
    ⟨if permits.isEmpty then .deny else .allow, permits.map Policy.id⟩
  else
    ⟨.deny, forbids.map Policy.id⟩

theorem mem_satisfied {ps : PolicySet} {effect : Effect} {req : Request} {es : Entities}
    {p : Policy} : p ∈ ps.satisfied effect req es ↔
      p ∈ ps.list ∧ p.effect = effect ∧ p.condition req es = .ok true := by
  have hsat : p.satisfied req es = true ↔ p.condition req es = .ok true := by
    rw [Policy.satisfied]
    cases p.condition req es with
    | ok b => simp
    | error e => simp
  rw [PolicySet.satisfied, List.mem_filter, Bool.and_eq_true, beq_iff_eq, hsat]

/-- **What an authorizer allows**: some permit applies and no forbid does. -/
theorem isAuthorized_allow_iff {ps : PolicySet} {req : Request} {es : Entities} :
    (ps.isAuthorized req es).decision = .allow ↔
      (∃ p ∈ ps.list, p.effect = .permit ∧ p.condition req es = .ok true) ∧
      ∀ p ∈ ps.list, p.effect = .forbid → p.condition req es ≠ .ok true := by
  have hforbid : (ps.satisfied .forbid req es).isEmpty = true ↔
      ∀ p ∈ ps.list, p.effect = .forbid → p.condition req es ≠ .ok true := by
    rw [List.isEmpty_iff, List.eq_nil_iff_forall_not_mem]
    constructor
    · intro h p hp he hc
      exact h p (mem_satisfied.mpr ⟨hp, he, hc⟩)
    · intro h p hp
      obtain ⟨hp, he, hc⟩ := mem_satisfied.mp hp
      exact h p hp he hc
  have hpermit : (ps.satisfied .permit req es).isEmpty = false ↔
      ∃ p ∈ ps.list, p.effect = .permit ∧ p.condition req es = .ok true := by
    rw [List.isEmpty_eq_false_iff_exists_mem]
    constructor
    · rintro ⟨p, hp⟩
      obtain ⟨hp, he, hc⟩ := mem_satisfied.mp hp
      exact ⟨p, hp, he, hc⟩
    · rintro ⟨p, hp, he, hc⟩
      exact ⟨p, mem_satisfied.mpr ⟨hp, he, hc⟩⟩
  rw [← hforbid, ← hpermit, PolicySet.isAuthorized]
  cases (ps.satisfied .forbid req es).isEmpty <;>
    cases (ps.satisfied .permit req es).isEmpty <;> simp

/-- The policies that decided: the satisfied forbids, or the satisfied permits
when no forbid is satisfied. -/
def PolicySet.Determines (ps : PolicySet) (req : Request) (es : Entities) (p : Policy) : Prop :=
  p ∈ ps.list ∧ p.condition req es = .ok true ∧
    (p.effect = .permit → ∀ q ∈ ps.list, q.effect = .forbid → q.condition req es ≠ .ok true)

/-- The reasons of a response name exactly the determining policies. -/
theorem mem_reason_iff {ps : PolicySet} {req : Request} {es : Entities} {id : String} :
    id ∈ (ps.isAuthorized req es).reason ↔ ∃ p, ps.Determines req es p ∧ p.id = id := by
  rw [PolicySet.isAuthorized]
  by_cases hnone : (ps.satisfied .forbid req es).isEmpty = true
  · rw [if_pos hnone]
    have hfree : ∀ q ∈ ps.list, q.effect = .forbid → q.condition req es ≠ .ok true := by
      intro q hq he hc
      rw [List.isEmpty_iff] at hnone
      exact List.eq_nil_iff_forall_not_mem.mp hnone q (mem_satisfied.mpr ⟨hq, he, hc⟩)
    rw [List.mem_map]
    constructor
    · rintro ⟨p, hp, hid⟩
      obtain ⟨hp, _, hc⟩ := mem_satisfied.mp hp
      exact ⟨p, ⟨hp, hc, fun _ => hfree⟩, hid⟩
    · rintro ⟨p, ⟨hp, hc, _⟩, hid⟩
      refine ⟨p, mem_satisfied.mpr ⟨hp, ?_, hc⟩, hid⟩
      cases he : p.effect with
      | permit => rfl
      | forbid => exact absurd hc (hfree p hp he)
  · rw [if_neg hnone]
    have hsome : ∃ q ∈ ps.list, q.effect = .forbid ∧ q.condition req es = .ok true := by
      rw [Bool.not_eq_true, List.isEmpty_eq_false_iff_exists_mem] at hnone
      obtain ⟨q, hq⟩ := hnone
      exact ⟨q, mem_satisfied.mp hq⟩
    rw [List.mem_map]
    constructor
    · rintro ⟨p, hp, hid⟩
      obtain ⟨hp, he, hc⟩ := mem_satisfied.mp hp
      exact ⟨p, ⟨hp, hc, fun h => by rw [he] at h; cases h⟩, hid⟩
    · rintro ⟨p, ⟨hp, hc, hfree⟩, hid⟩
      refine ⟨p, mem_satisfied.mpr ⟨hp, ?_, hc⟩, hid⟩
      cases he : p.effect with
      | forbid => rfl
      | permit =>
          obtain ⟨q, hq, heq, hcq⟩ := hsome
          exact absurd hcq (hfree he q hq heq)

/-! ## Schemas -/

/-- Attributes carry whether they are required. -/
inductive Ty where
  | boolean
  | long
  | string
  | entity (type : String)
  | set (element : Ty)
  | record (attributes : List (String × Bool × Ty))

mutual
def Value.conforms : Value → Ty → Bool
  | .bool _, .boolean => true
  | .long _, .long => true
  | .string _, .string => true
  | .entity uid, .entity type => uid.type == type
  | .set vs, .set element => allConform vs element
  | .record kvs, .record attributes =>
      membersConform kvs attributes &&
        attributes.all fun a => !a.2.1 || (kvs.lookup a.1).isSome
  | _, _ => false
def allConform : List Value → Ty → Bool
  | [], _ => true
  | v :: vs, t => v.conforms t && allConform vs t
/-- Every member is declared and of its declared type. -/
def membersConform : List (String × Value) → List (String × Bool × Ty) → Bool
  | [], _ => true
  | (k, v) :: kvs, attributes =>
      (match attributes.lookup k with
        | some (_, t) => v.conforms t
        | none => false) && membersConform kvs attributes
end

theorem allConform_iff {t : Ty} : ∀ {vs : List Value},
    allConform vs t = true ↔ ∀ v ∈ vs, v.conforms t = true
  | [] => by simp [allConform]
  | v :: vs => by rw [allConform, Bool.and_eq_true, allConform_iff, List.forall_mem_cons]

structure ActionSpec where
  principalTypes : List String
  resourceTypes : List String
  context : List (String × Bool × Ty)

structure Schema where
  entityTypes : List (String × List (String × Bool × Ty))
  actions : List (EntityUid × ActionSpec)

inductive EntitiesError where
  | undeclaredType (uid : EntityUid)
  | attributes (uid : EntityUid)
  | duplicate
deriving DecidableEq

inductive RequestError where
  | undeclaredPrincipalType (type : String)
  | undeclaredResourceType (type : String)
  | undeclaredAction (action : EntityUid)
  | invalidPrincipalType (principal action : EntityUid)
  | invalidResourceType (resource action : EntityUid)
  | invalidContext (action : EntityUid)
deriving DecidableEq

/-- What is wrong with an entity. -/
def Schema.entityError (schema : Schema) (e : Entity) : Option EntitiesError :=
  match schema.entityTypes.lookup e.uid.type with
  | none => some (.undeclaredType e.uid)
  | some shape =>
      if (Value.record e.attrs).conforms (.record shape) then none
      else some (.attributes e.uid)

def Schema.actionEntities (schema : Schema) : List Entity :=
  schema.actions.map fun a => ⟨a.1, []⟩

/-- The store also receives the actions the schema declares. -/
def Entities.fromEntities (schema : Schema) (entities : List Entity) :
    Except EntitiesError Entities :=
  match entities.findSome? schema.entityError with
  | some err => .error err
  | none =>
      if h : ((entities ++ schema.actionEntities).map Entity.uid).Nodup then .ok ⟨_, h⟩
      else .error .duplicate

def Request.new (schema : Schema) (principal action resource : EntityUid)
    (context : List (String × Value)) : Except RequestError Request :=
  if (schema.entityTypes.lookup principal.type).isNone then
    .error (.undeclaredPrincipalType principal.type)
  else if (schema.entityTypes.lookup resource.type).isNone then
    .error (.undeclaredResourceType resource.type)
  else match schema.actions.lookup action with
  | none => .error (.undeclaredAction action)
  | some spec =>
      if !spec.principalTypes.contains principal.type then
        .error (.invalidPrincipalType principal action)
      else if !spec.resourceTypes.contains resource.type then
        .error (.invalidResourceType resource action)
      else if !(Value.record context).conforms (.record spec.context) then
        .error (.invalidContext action)
      else .ok ⟨principal, action, resource, context⟩

/-- An accepted request is the one that was given. -/
theorem Request.eq_of_new {schema : Schema} {principal action resource : EntityUid}
    {context : List (String × Value)} {req : Request}
    (h : Request.new schema principal action resource context = .ok req) :
    req = ⟨principal, action, resource, context⟩ := by
  unfold Request.new at h
  split at h
  · cases h
  · split at h
    · cases h
    · split at h
      · cases h
      · repeat' split at h
        all_goals cases h
        rfl

theorem Entities.list_of_fromEntities {schema : Schema} {entities : List Entity}
    {es : Entities} (h : Entities.fromEntities schema entities = .ok es) :
    es.list = entities ++ schema.actionEntities := by
  unfold Entities.fromEntities at h
  split at h
  · cases h
  · split at h
    · cases h
      rfl
    · cases h

end Cedar
