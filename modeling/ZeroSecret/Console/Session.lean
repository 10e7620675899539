import Mathlib.Data.List.Induction
import Mathlib.Tactic.NormNum
import ZeroSecret.Base.LenientBase64

/-!
# Console sessions

`apps/console-web/src/session.ts`. The store is one map from the text of an
identifier to its session; a presented identifier is compared by the octets it
stands for. `fromBase64url` is `Buffer.from(text, "base64url")`, of which only
this is used: it reads back what `toString("base64url")` writes.

Seen from one session the other sessions play no part (`onSession`), and the
map holds exactly what each session has come to (`holds_run`).
-/

namespace ZeroSecret.Console

structure SessionData where
  subjectId : CodeUnits
  identityAssertion : Bytes
  expiresAt : Number
deriving DecidableEq

structure StoredSession extends SessionData where
  id : CodeUnits
deriving DecidableEq

/-- What `randomBytes(32)` draws. -/
abbrev Random32 := { bytes : Bytes // bytes.length = 32 }

abbrev SessionStore := ScriptMap CodeUnits StoredSession

namespace SessionStore

/-- `for (const [id, session] of this.sessions)`, over the entries still to visit. -/
def sweepLoop (now : Number) :
    List (CodeUnits × StoredSession) → SessionStore → Nat → Nat × SessionStore
  | [], sessions, removed => (removed, sessions)
  | (id, session) :: rest, sessions, removed =>
      if session.expiresAt ≤ now then sweepLoop now rest (sessions.delete id) (removed + 1)
      else sweepLoop now rest sessions removed

def sweepExpired (sessions : SessionStore) (now : Number) : Nat × SessionStore :=
  sweepLoop now sessions.entries sessions 0

def create (sessions : SessionStore) (data : SessionData) (random : Random32) :
    CodeUnits × SessionStore :=
  let id := Base64.urlUnits random
  (id, sessions.set id { data with id })

variable (fromBase64url : CodeUnits → Bytes)

def lookupConstantTime (sessions : SessionStore) (id : CodeUnits) : Option StoredSession :=
  let presented := fromBase64url id
  if presented.length ≠ 32 then none
  else sessions.values.find? fun session =>
    let known := fromBase64url session.id
    -- `timingSafeEqual` throws on different lengths
    known.length = presented.length ∧ known = presented

def get (sessions : SessionStore) (id : CodeUnits) (now : Number) :
    Option StoredSession × SessionStore :=
  match sessions.lookupConstantTime fromBase64url id with
  | none => (none, sessions)
  | some found =>
      if found.expiresAt ≤ now then (none, sessions.delete found.id) else (some found, sessions)

def destroy (sessions : SessionStore) (id : CodeUnits) : SessionStore :=
  match sessions.lookupConstantTime fromBase64url id with
  | none => sessions
  | some found => sessions.delete found.id

end SessionStore

/-! ## Histories -/

inductive Operation
  | create (data : SessionData) (random : Random32)
  | get (id : CodeUnits) (now : Number)
  | destroy (id : CodeUnits)
  | sweepExpired (now : Number)

/-- The values `randomBytes` drew. -/
def drawn (history : List Operation) : List Random32 :=
  history.filterMap fun
    | .create _ random => some random
    | _ => none

variable (fromBase64url : CodeUnits → Bytes)

namespace Operation

def step (sessions : SessionStore) : Operation → SessionStore
  | create data random => (sessions.create data random).2
  | get id now => (sessions.get fromBase64url id now).2
  | destroy id => sessions.destroy fromBase64url id
  | sweepExpired now => (sessions.sweepExpired now).2

/-- The octets of the one identifier an operation is on. -/
def key : Operation → Option Bytes
  | create _ random => some random
  | get id _ => some (fromBase64url id)
  | destroy id => some (fromBase64url id)
  | sweepExpired _ => none

/-- What the session of `random` becomes. -/
def onSession (random : Random32) : Operation → Option SessionData → Option SessionData
  | create data drawn, held => if drawn = random then some data else held
  | get id now, held =>
      if fromBase64url id = random then held.filter fun data => ¬ data.expiresAt ≤ now else held
  | destroy id, held => if fromBase64url id = random then none else held
  | sweepExpired now, held => held.filter fun data => ¬ data.expiresAt ≤ now

/-- Destroyed, or found expired. -/
def Removes (random : Random32) (data : SessionData) : Operation → Prop
  | create _ _ => False
  | get id now => fromBase64url id = random ∧ data.expiresAt ≤ now
  | destroy id => fromBase64url id = random
  | sweepExpired now => data.expiresAt ≤ now

end Operation

def run (history : List Operation) : SessionStore :=
  history.foldl (Operation.step fromBase64url) ScriptMap.empty

def held (history : List Operation) (random : Random32) : Option SessionData :=
  history.foldl (fun held op => op.onSession fromBase64url random held) none

/-- Created, and not removed since. -/
def Survives (history : List Operation) (random : Random32) (data : SessionData) : Prop :=
  ∃ before after, history = before ++ .create data random :: after ∧
    ∀ op ∈ after, ¬ op.Removes fromBase64url random data

theorem run_snoc (history : List Operation) (op : Operation) :
    run fromBase64url (history ++ [op]) = op.step fromBase64url (run fromBase64url history) := by
  rw [run, List.foldl_append]
  rfl

theorem held_append (history later : List Operation) (random : Random32) :
    held fromBase64url (history ++ later) random =
      later.foldl (fun held op => op.onSession fromBase64url random held)
        (held fromBase64url history random) := by
  rw [held, List.foldl_append]
  rfl

theorem held_snoc (history : List Operation) (op : Operation) (random : Random32) :
    held fromBase64url (history ++ [op]) random =
      op.onSession fromBase64url random (held fromBase64url history random) :=
  held_append fromBase64url history [op] random

/-- An operation on another identifier leaves a session alone. -/
theorem onSession_of_key_ne {op : Operation} {random : Random32} {key : Bytes}
    (hkey : op.key fromBase64url = some key) (hne : key ≠ random) (held : Option SessionData) :
    op.onSession fromBase64url random held = held := by
  cases op with
  | create data drawn =>
      obtain rfl : drawn.val = key := Option.some.inj hkey
      exact if_neg fun h => hne (congrArg Subtype.val h)
  | get id now =>
      obtain rfl : fromBase64url id = key := Option.some.inj hkey
      exact if_neg hne
  | destroy id =>
      obtain rfl : fromBase64url id = key := Option.some.inj hkey
      exact if_neg hne
  | sweepExpired now => exact absurd hkey nofun

theorem held_without {before after : List Operation} {op : Operation} {random : Random32}
    {key : Bytes} (hkey : op.key fromBase64url = some key) (hne : key ≠ random) :
    held fromBase64url (before ++ op :: after) random =
      held fromBase64url (before ++ after) random := by
  rw [held_append, held_append, List.foldl_cons, onSession_of_key_ne fromBase64url hkey hne]

/-! ## One session -/

/-- An operation that draws nothing anew and does not remove leaves the session. -/
theorem onSession_of_not_removes {op : Operation} {random : Random32} {data : SessionData}
    (hfresh : ∀ data', op ≠ .create data' random)
    (hstays : ¬ op.Removes fromBase64url random data) :
    op.onSession fromBase64url random (some data) = some data := by
  cases op with
  | create data' drawn =>
      refine if_neg ?_
      rintro rfl
      exact hfresh data' rfl
  | get id now =>
      by_cases hid : fromBase64url id = random
      · have hlive : ¬ data.expiresAt ≤ now := fun h => hstays ⟨hid, h⟩
        simp [Operation.onSession, hid, hlive]
      · exact if_neg hid
  | destroy id => exact if_neg hstays
  | sweepExpired now =>
      have hlive : ¬ data.expiresAt ≤ now := hstays
      simp [Operation.onSession, hlive]

/-- What an operation leaves was created by it, or was there and is not removed. -/
theorem of_onSession {op : Operation} {random : Random32} {held : Option SessionData}
    {data : SessionData} (h : op.onSession fromBase64url random held = some data) :
    op = .create data random ∨ held = some data ∧ ¬ op.Removes fromBase64url random data := by
  cases op with
  | create data' drawn =>
      by_cases hdrawn : drawn = random
      · left
        rw [Operation.onSession, if_pos hdrawn] at h
        rw [hdrawn, Option.some.inj h]
      · right
        rw [Operation.onSession, if_neg hdrawn] at h
        exact ⟨h, id⟩
  | get id now =>
      right
      by_cases hid : fromBase64url id = random
      · rw [Operation.onSession, if_pos hid, Option.filter_eq_some_iff] at h
        exact ⟨h.1, fun hexpired => of_decide_eq_true h.2 hexpired.2⟩
      · rw [Operation.onSession, if_neg hid] at h
        exact ⟨h, fun hexpired => hid hexpired.1⟩
  | destroy id =>
      right
      by_cases hid : fromBase64url id = random
      · rw [Operation.onSession, if_pos hid] at h
        cases h
      · rw [Operation.onSession, if_neg hid] at h
        exact ⟨h, hid⟩
  | sweepExpired now =>
      right
      rw [Operation.onSession, Option.filter_eq_some_iff] at h
      have hlive : ¬ data.expiresAt ≤ now := of_decide_eq_true h.2
      exact ⟨h.1, hlive⟩

theorem Survives.snoc {history : List Operation} {random : Random32} {data : SessionData}
    (h : Survives fromBase64url history random data) {op : Operation}
    (hstays : ¬ op.Removes fromBase64url random data) :
    Survives fromBase64url (history ++ [op]) random data := by
  obtain ⟨before, after, rfl, hafter⟩ := h
  refine ⟨before, after ++ [op], by simp, ?_⟩
  intro op' hop'
  rcases List.mem_append.mp hop' with hop' | hop'
  · exact hafter op' hop'
  · rw [List.mem_singleton.mp hop']
    exact hstays

theorem survives_of_held {history : List Operation} {random : Random32} {data : SessionData}
    (h : held fromBase64url history random = some data) :
    Survives fromBase64url history random data := by
  induction history using List.reverseRecOn with
  | nil => cases h
  | append_singleton history op ih =>
      rw [held_snoc] at h
      rcases of_onSession fromBase64url h with rfl | ⟨hheld, hstays⟩
      · exact ⟨history, [], rfl, nofun⟩
      · exact (ih hheld).snoc fromBase64url hstays

/-- A run of operations that neither draw `random` nor remove its session. -/
theorem foldl_onSession {random : Random32} {data : SessionData} (later : List Operation)
    (hfresh : random ∉ drawn later)
    (hstays : ∀ op ∈ later, ¬ op.Removes fromBase64url random data) :
    later.foldl (fun held op => op.onSession fromBase64url random held) (some data) =
      some data := by
  induction later with
  | nil => rfl
  | cons op later ih =>
      have hhead : ∀ data', op ≠ .create data' random := by
        rintro data' rfl
        exact hfresh (List.mem_cons_self ..)
      have htail : random ∉ drawn later := by
        intro hmem
        apply hfresh
        obtain ⟨op', hop', hdraws⟩ := List.mem_filterMap.mp hmem
        exact List.mem_filterMap.mpr ⟨op', List.mem_cons_of_mem op hop', hdraws⟩
      rw [List.foldl_cons,
        onSession_of_not_removes fromBase64url hhead (hstays op (List.mem_cons_self ..))]
      exact ih htail fun op' hop' => hstays op' (List.mem_cons_of_mem op hop')

/-- **With distinct draws, what is held has survived.** -/
theorem held_eq_some_iff {history : List Operation} (hdistinct : (drawn history).Nodup)
    {random : Random32} {data : SessionData} :
    held fromBase64url history random = some data ↔
      Survives fromBase64url history random data := by
  refine ⟨survives_of_held fromBase64url, ?_⟩
  rintro ⟨before, after, rfl, hafter⟩
  have hfresh : random ∉ drawn after := by
    rw [drawn, List.filterMap_append, List.filterMap_cons] at hdistinct
    exact (List.nodup_cons.mp (List.nodup_append'.mp hdistinct).2.1).1
  rw [held_append, List.foldl_cons, Operation.onSession, if_pos rfl]
  exact foldl_onSession fromBase64url after hfresh hafter

/-! ## The map -/

def stored (random : Random32) (data : SessionData) : StoredSession :=
  { data with id := Base64.urlUnits random }

/-- The entries are those of the sessions held. -/
def Holds (sessions : SessionStore) (held : Random32 → Option SessionData) : Prop :=
  ∀ e, e ∈ sessions.entries ↔
    ∃ random data, held random = some data ∧ e = (Base64.urlUnits random, stored random data)

section
variable (hread : ∀ bytes, fromBase64url (Base64.urlUnits bytes) = bytes)
include hread

theorem urlUnits_inj {r s : Random32} :
    Base64.urlUnits r = Base64.urlUnits s ↔ r = s := by
  constructor
  · intro h
    apply Subtype.ext
    rw [← hread r, ← hread s, h]
  · rintro rfl
    rfl

variable {sessions : SessionStore} {held : Random32 → Option SessionData}

/-- An identifier finds the session of the octets it stands for. -/
theorem lookupConstantTime_of_holds (h : Holds sessions held) {id : CodeUnits}
    {random : Random32} (hid : fromBase64url id = random) :
    sessions.lookupConstantTime fromBase64url id = (held random).map (stored random) := by
  have hlength : ¬ (fromBase64url id).length ≠ 32 := by
    rw [hid, random.property]
    exact not_not_intro rfl
  rw [SessionStore.lookupConstantTime, if_neg hlength]
  cases hheld : held random with
  | none =>
      rw [Option.map_none, List.find?_eq_none]
      intro session hsession hmatch
      obtain ⟨e, he, rfl⟩ := List.mem_map.mp hsession
      obtain ⟨random', data, hdata, rfl⟩ := (h e).mp he
      have hknown := (of_decide_eq_true hmatch).2
      rw [stored, hread, hid] at hknown
      rw [Subtype.ext hknown, hheld] at hdata
      cases hdata
  | some data =>
      rw [Option.map_some]
      have hmem : stored random data ∈ sessions.values :=
        List.mem_map.mpr ⟨_, (h _).mpr ⟨random, data, hheld, rfl⟩, rfl⟩
      cases hfind : sessions.values.find? _ with
      | none =>
          have hno := List.find?_eq_none.mp hfind _ hmem
          simp [stored, hread, hid] at hno
      | some found =>
          obtain ⟨e, he, rfl⟩ := List.mem_map.mp (List.mem_of_find?_eq_some hfind)
          obtain ⟨random', data', hdata', rfl⟩ := (h e).mp he
          have hmatch := List.find?_some hfind
          simp only [stored, hread, hid, decide_eq_true_eq] at hmatch
          obtain rfl := Subtype.ext hmatch.2
          rw [hheld] at hdata'
          rw [Option.some.inj hdata']

omit hread in
theorem lookupConstantTime_of_length {id : CodeUnits} (hid : (fromBase64url id).length ≠ 32) :
    sessions.lookupConstantTime fromBase64url id = none :=
  if_pos hid

theorem holds_create (h : Holds sessions held) (data : SessionData) (random : Random32) :
    Holds (sessions.create data random).2
      fun r => (Operation.create data random).onSession fromBase64url r (held r) := by
  intro e
  rw [SessionStore.create, ScriptMap.mem_set]
  constructor
  · rintro (rfl | ⟨he, hne⟩)
    · exact ⟨random, data, if_pos rfl, rfl⟩
    · obtain ⟨r, d, hd, rfl⟩ := (h e).mp he
      have hr : ¬ random = r := by
        rintro rfl
        exact hne rfl
      exact ⟨r, d, (if_neg hr).trans hd, rfl⟩
  · rintro ⟨r, d, hd, rfl⟩
    by_cases hr : random = r
    · left
      subst hr
      have hdata : data = d := Option.some.inj ((if_pos rfl).symm.trans hd)
      rw [hdata]
      rfl
    · right
      have hheld : held r = some d := (if_neg hr).symm.trans hd
      exact ⟨(h _).mpr ⟨r, d, hheld, rfl⟩,
        fun hkey => hr ((urlUnits_inj fromBase64url hread).mp hkey).symm⟩

/-- Deleting the entry of one session. -/
theorem Holds.delete (h : Holds sessions held) {held' : Random32 → Option SessionData}
    {random : Random32} (hgone : held' random = none)
    (hothers : ∀ r, r ≠ random → held' r = held r) :
    Holds (sessions.delete (Base64.urlUnits random)) held' := by
  intro e
  rw [ScriptMap.mem_delete]
  constructor
  · rintro ⟨he, hne⟩
    obtain ⟨r, d, hd, rfl⟩ := (h e).mp he
    have hr : r ≠ random := by
      rintro rfl
      exact hne rfl
    exact ⟨r, d, (hothers r hr).trans hd, rfl⟩
  · rintro ⟨r, d, hd, rfl⟩
    have hr : r ≠ random := by
      rintro rfl
      rw [hgone] at hd
      cases hd
    rw [hothers r hr] at hd
    exact ⟨(h _).mpr ⟨r, d, hd, rfl⟩, fun hkey => hr ((urlUnits_inj fromBase64url hread).mp hkey)⟩

omit hread in
/-- An identifier that is not of 32 octets is no session's. -/
theorem ne_of_length {id : CodeUnits} (hid : (fromBase64url id).length ≠ 32) (r : Random32) :
    fromBase64url id ≠ r := by
  intro h
  rw [h] at hid
  exact hid r.property

theorem holds_destroy (h : Holds sessions held) (id : CodeUnits) :
    Holds (sessions.destroy fromBase64url id)
      fun r => (Operation.destroy id).onSession fromBase64url r (held r) := by
  by_cases hlength : (fromBase64url id).length ≠ 32
  · have hsame : (fun r => (Operation.destroy id).onSession fromBase64url r (held r)) = held :=
      funext fun r => if_neg (ne_of_length fromBase64url hlength r)
    rw [SessionStore.destroy, lookupConstantTime_of_length fromBase64url hlength, hsame]
    exact h
  · let random : Random32 := ⟨fromBase64url id, not_not.mp hlength⟩
    have hgone : (Operation.destroy id).onSession fromBase64url random (held random) = none :=
      if_pos rfl
    have hothers : ∀ r, r ≠ random →
        (Operation.destroy id).onSession fromBase64url r (held r) = held r :=
      fun r hr => if_neg fun heq => hr (Subtype.ext heq.symm)
    have hid : fromBase64url id = random := rfl
    rw [SessionStore.destroy, lookupConstantTime_of_holds fromBase64url hread h hid]
    cases hheld : held random with
    | none =>
        have hsame : (fun r => (Operation.destroy id).onSession fromBase64url r (held r)) =
            held := by
          funext r
          by_cases hr : r = random
          · rw [hr, hgone, hheld]
          · exact hothers r hr
        rw [hsame]
        exact h
    | some data => exact h.delete fromBase64url hread hgone hothers

theorem holds_get (h : Holds sessions held) (id : CodeUnits) (now : Number) :
    Holds (sessions.get fromBase64url id now).2
      fun r => (Operation.get id now).onSession fromBase64url r (held r) := by
  by_cases hlength : (fromBase64url id).length ≠ 32
  · have hsame : (fun r => (Operation.get id now).onSession fromBase64url r (held r)) = held :=
      funext fun r => if_neg (ne_of_length fromBase64url hlength r)
    rw [SessionStore.get, lookupConstantTime_of_length fromBase64url hlength, hsame]
    exact h
  · let random : Random32 := ⟨fromBase64url id, not_not.mp hlength⟩
    have hone : (Operation.get id now).onSession fromBase64url random (held random) =
        (held random).filter fun data => ¬ data.expiresAt ≤ now := if_pos rfl
    have hothers : ∀ r, r ≠ random →
        (Operation.get id now).onSession fromBase64url r (held r) = held r :=
      fun r hr => if_neg fun heq => hr (Subtype.ext heq.symm)
    have hsame : (held random).filter (fun data => ¬ data.expiresAt ≤ now) = held random →
        (fun r => (Operation.get id now).onSession fromBase64url r (held r)) = held := by
      intro hkept
      funext r
      by_cases hr : r = random
      · rw [hr, hone, hkept]
      · exact hothers r hr
    have hid : fromBase64url id = random := rfl
    rw [SessionStore.get, lookupConstantTime_of_holds fromBase64url hread h hid]
    cases hheld : held random with
    | none =>
        rw [hsame (by rw [hheld, Option.filter_none])]
        exact h
    | some data =>
        by_cases hexpired : data.expiresAt ≤ now
        · have hgone : (Operation.get id now).onSession fromBase64url random (held random) =
              none := by
            rw [hone, hheld]
            simp [hexpired]
          simp only [Option.map_some, stored, if_pos hexpired]
          exact h.delete fromBase64url hread hgone hothers
        · rw [hsame (by rw [hheld]; simp [hexpired])]
          simp only [Option.map_some, stored, if_neg hexpired]
          exact h

omit hread in
theorem mem_sweepLoop {now : Number} {e : CodeUnits × StoredSession}
    (visited : List (CodeUnits × StoredSession)) (sessions : SessionStore) (removed : Nat) :
    e ∈ (SessionStore.sweepLoop now visited sessions removed).2.entries ↔
      e ∈ sessions.entries ∧ ∀ v ∈ visited, v.2.expiresAt ≤ now → e.1 ≠ v.1 := by
  induction visited generalizing sessions removed with
  | nil => simp [SessionStore.sweepLoop]
  | cons v rest ih =>
      obtain ⟨id, session⟩ := v
      rw [SessionStore.sweepLoop]
      split
      · rename_i hexpired
        rw [ih, ScriptMap.mem_delete, and_assoc, List.forall_mem_cons]
        exact and_congr_right fun _ => and_congr_left fun _ => ⟨fun h _ => h, fun h => h hexpired⟩
      · rename_i hlive
        rw [ih, List.forall_mem_cons]
        exact and_congr_right fun _ => (and_iff_right fun h => absurd h hlive).symm

omit hread in
/-- What a sweep leaves is what is not expired. -/
theorem mem_sweepExpired {now : Number} {e : CodeUnits × StoredSession} :
    e ∈ (sessions.sweepExpired now).2.entries ↔ e ∈ sessions.entries ∧ ¬ e.2.expiresAt ≤ now := by
  rw [SessionStore.sweepExpired, mem_sweepLoop]
  refine and_congr_right fun he => ⟨fun h hexpired => h e he hexpired rfl, ?_⟩
  intro hlive v hv hexpired hkey
  obtain rfl := List.inj_on_of_nodup_map sessions.distinct he hv hkey
  exact hlive hexpired

omit hread in
theorem holds_sweepExpired (h : Holds sessions held) (now : Number) :
    Holds (sessions.sweepExpired now).2
      fun r => (Operation.sweepExpired now).onSession fromBase64url r (held r) := by
  intro e
  rw [mem_sweepExpired, h]
  constructor
  · rintro ⟨⟨r, d, hd, rfl⟩, hlive⟩
    have hlive' : ¬ d.expiresAt ≤ now := hlive
    exact ⟨r, d, Option.filter_eq_some_iff.mpr ⟨hd, decide_eq_true hlive'⟩, rfl⟩
  · rintro ⟨r, d, hd, rfl⟩
    obtain ⟨hheld, hlive⟩ := Option.filter_eq_some_iff.mp hd
    have hlive' : ¬ d.expiresAt ≤ now := of_decide_eq_true hlive
    exact ⟨⟨r, d, hheld, rfl⟩, hlive'⟩

theorem holds_step (h : Holds sessions held) (op : Operation) :
    Holds (op.step fromBase64url sessions)
      fun r => op.onSession fromBase64url r (held r) := by
  cases op with
  | create data random => exact holds_create fromBase64url hread h data random
  | get id now => exact holds_get fromBase64url hread h id now
  | destroy id => exact holds_destroy fromBase64url hread h id
  | sweepExpired now => exact holds_sweepExpired fromBase64url h now

/-- **The map holds what each session has come to.** -/
theorem holds_run (history : List Operation) :
    Holds (run fromBase64url history) (Console.held fromBase64url history) := by
  induction history using List.reverseRecOn with
  | nil =>
      intro e
      refine iff_of_false (ScriptMap.not_mem_empty e) ?_
      rintro ⟨_, _, h, -⟩
      cases h
  | append_singleton history op ih =>
      rw [run_snoc]
      have hheld : Console.held fromBase64url (history ++ [op]) =
          fun r => op.onSession fromBase64url r (Console.held fromBase64url history r) :=
        funext fun r => held_snoc fromBase64url history op r
      rw [hheld]
      exact holds_step fromBase64url hread ih op

omit hread in
/-- What is answered is what is found, unless it is expired. -/
theorem get_answer (sessions : SessionStore) (id : CodeUnits) (now : Number) :
    (sessions.get fromBase64url id now).1 =
      (sessions.lookupConstantTime fromBase64url id).filter
        fun found => ¬ found.expiresAt ≤ now := by
  rw [SessionStore.get]
  cases sessions.lookupConstantTime fromBase64url id with
  | none => rfl
  | some found =>
      by_cases hexpired : found.expiresAt ≤ now
      · simp [Option.filter, hexpired]
      · simp [Option.filter, hexpired]

theorem get_of_holds (h : Holds sessions held) (id : CodeUnits) (now : Number) (data : SessionData) :
    (sessions.get fromBase64url id now).1.map (·.toSessionData) = some data ↔
      ∃ random : Random32, fromBase64url id = random ∧ held random = some data ∧
        ¬ data.expiresAt ≤ now := by
  rw [get_answer, Option.map_eq_some_iff]
  simp only [Option.filter_eq_some_iff, decide_eq_true_eq]
  constructor
  · rintro ⟨found, ⟨hfound, hlive⟩, rfl⟩
    have hlength : ¬ (fromBase64url id).length ≠ 32 := by
      intro hlength
      rw [lookupConstantTime_of_length fromBase64url hlength] at hfound
      cases hfound
    let random : Random32 := ⟨fromBase64url id, not_not.mp hlength⟩
    have hid : fromBase64url id = random := rfl
    rw [lookupConstantTime_of_holds fromBase64url hread h hid, Option.map_eq_some_iff] at hfound
    obtain ⟨data, hdata, rfl⟩ := hfound
    exact ⟨random, rfl, hdata, hlive⟩
  · rintro ⟨random, hid, hdata, hlive⟩
    refine ⟨stored random data, ⟨?_, hlive⟩, rfl⟩
    rw [lookupConstantTime_of_holds fromBase64url hread h hid, hdata, Option.map_some]

/-- The histories with and without an operation on another identifier. -/
theorem get_without {before after : List Operation} {op : Operation} {key : Bytes}
    (hkey : op.key fromBase64url = some key) {id : CodeUnits} (hid : fromBase64url id ≠ key)
    (now : Number) :
    ((run fromBase64url (before ++ op :: after)).get fromBase64url id now).1 =
      ((run fromBase64url (before ++ after)).get fromBase64url id now).1 := by
  rw [get_answer, get_answer]
  by_cases hlength : (fromBase64url id).length ≠ 32
  · rw [lookupConstantTime_of_length fromBase64url hlength,
      lookupConstantTime_of_length fromBase64url hlength]
  · let random : Random32 := ⟨fromBase64url id, not_not.mp hlength⟩
    have hfound : ∀ history, (run fromBase64url history).lookupConstantTime fromBase64url id =
        (Console.held fromBase64url history random).map (stored random) := fun history =>
      lookupConstantTime_of_holds fromBase64url hread (holds_run fromBase64url hread history) rfl
    rw [hfound, hfound, held_without fromBase64url hkey fun h => hid h.symm]

end

/-- **`get` returns the data of the session its identifier stands for, as long as that
session survives and is not expired by the caller's clock.** Away from `NaN` a session
is not expired before its `expiresAt`; and an operation on one identifier changes
nothing of what another one is answered. -/
theorem get_returned (hread : ∀ bytes, fromBase64url (Base64.urlUnits bytes) = bytes)
    {history : List Operation} (hdistinct : (drawn history).Nodup) :
    (∀ id now data,
      ((run fromBase64url history).get fromBase64url id now).1.map (·.toSessionData) = some data ↔
        ∃ random : Random32, fromBase64url id = random ∧
          Survives fromBase64url history random data ∧ ¬ data.expiresAt ≤ now) ∧
    (∀ id now data, now ≠ .nan → data.expiresAt ≠ .nan →
      (((run fromBase64url history).get fromBase64url id now).1.map (·.toSessionData) = some data ↔
        ∃ random : Random32, fromBase64url id = random ∧
          Survives fromBase64url history random data ∧ now < data.expiresAt)) ∧
    ∀ before op after key, history = before ++ op :: after → op.key fromBase64url = some key →
      ∀ id now, fromBase64url id ≠ key →
        ((run fromBase64url history).get fromBase64url id now).1 =
          ((run fromBase64url (before ++ after)).get fromBase64url id now).1 := by
  have hget : ∀ id now data,
      ((run fromBase64url history).get fromBase64url id now).1.map (·.toSessionData) = some data ↔
        ∃ random : Random32, fromBase64url id = random ∧
          Survives fromBase64url history random data ∧ ¬ data.expiresAt ≤ now := by
    intro id now data
    rw [get_of_holds fromBase64url hread (holds_run fromBase64url hread history)]
    simp only [held_eq_some_iff fromBase64url hdistinct]
  refine ⟨hget, ?_, ?_⟩
  · intro id now data hnow hdata
    rw [hget]
    simp only [Number.not_le_iff_lt hdata hnow]
  · rintro before op after key rfl hkey id now hid
    exact get_without fromBase64url hread hkey hid now

section
variable {fromBase64url}

theorem survives_singleton (data : SessionData) (random : Random32) :
    Survives fromBase64url [.create data random] random data :=
  ⟨[], [], rfl, nofun⟩

end

def sampleRandom : Random32 := ⟨List.replicate 32 0, Bytes.length_zeros⟩

def sampleData : SessionData := ⟨CodeUnits.ofChars ['s', '-', '1'], [1, 2, 3], .exact 60⟩

/-- The identifier of `sampleRandom` with a blank in it and padding behind it. -/
def spacedId : CodeUnits := 32 :: Base64.urlUnits sampleRandom ++ [61]

/-- Another text of the same octets gets the session at 59 and not at 60; an unrelated
identifier destroyed in between does no harm. -/
theorem get_returned_spaced :
    ((run Base64.lenient [.create sampleData sampleRandom]).get Base64.lenient spacedId
      (.exact 59)).1.map (·.toSessionData) = some sampleData ∧
    ((run Base64.lenient [.create sampleData sampleRandom]).get Base64.lenient spacedId
      (.exact 60)).1.map (·.toSessionData) ≠ some sampleData ∧
    ((run Base64.lenient [.create sampleData sampleRandom, .destroy []]).get Base64.lenient spacedId
      (.exact 59)).1 =
    ((run Base64.lenient [.create sampleData sampleRandom]).get Base64.lenient spacedId
      (.exact 59)).1 := by
  have hid : Base64.lenient spacedId = sampleRandom := by decide +kernel
  have hlive : Number.exact 59 < sampleData.expiresAt :=
    Number.exact_lt_exact.mpr (by norm_num)
  have hone := @get_returned Base64.lenient Base64.lenient_urlUnits
    [.create sampleData sampleRandom] (List.nodup_singleton _)
  have htwo := @get_returned Base64.lenient Base64.lenient_urlUnits
    [.create sampleData sampleRandom, .destroy []] (List.nodup_singleton _)
  refine ⟨?_, ?_, ?_⟩
  · exact (hone.2.1 spacedId (.exact 59) sampleData nofun nofun).mpr
      ⟨sampleRandom, hid, survives_singleton sampleData sampleRandom, hlive⟩
  · intro h
    obtain ⟨-, -, -, hnot⟩ := (hone.1 spacedId (.exact 60) sampleData).mp h
    exact hnot (Number.exact_le_exact.mpr le_rfl)
  · exact htwo.2.2 [.create sampleData sampleRandom] (.destroy []) [] [] rfl rfl spacedId _
      (by rw [hid]; decide)

/-- A session whose `expiresAt` is `NaN`. -/
def unendingData : SessionData := { sampleData with expiresAt := .nan }

/-- It is returned, though no clock is before its end. -/
theorem unending_session_returned :
    (drawn [.create unendingData sampleRandom]).Nodup ∧
    ¬ (((run Base64.lenient [.create unendingData sampleRandom]).get Base64.lenient
        (Base64.urlUnits sampleRandom) (.exact 0)).1.map (·.toSessionData) = some unendingData ↔
      ∃ random : Random32, Base64.lenient (Base64.urlUnits sampleRandom) = random ∧
        Survives Base64.lenient [.create unendingData sampleRandom] random unendingData ∧
        Number.exact 0 < unendingData.expiresAt) := by
  refine ⟨List.nodup_singleton _, fun h => ?_⟩
  obtain ⟨-, -, -, hbefore⟩ := h.mp (by decide +kernel)
  exact hbefore

end ZeroSecret.Console
