import Mathlib.Data.List.Basic
import ZeroSecret.Base.Json

/-!
# Regular expressions

Patterns with anchors and groups. The matcher tries alternatives from left to
right and repeats as often as it can; `ways` lists every way to match at the
front of a text, in the order they are tried, and a search takes the first way
at the leftmost place. What a pattern accepts is the relation `Matches`, of a
word with what stands before and after it.
-/

inductive Regex where
  | empty
  | char (accepts : Char → Bool)
  | startOfText
  | endOfText
  | seq (a b : Regex)
  | alt (a b : Regex)
  | star (a : Regex)
  | group (n : Nat) (a : Regex)

namespace Regex

abbrev Captures : Type := List (Nat × List Char)

/-- What the groups took, and what is left of the text. -/
abbrev Ways : Type := List (Captures × List Char)

def Ways.andThen (ways : Ways) (next : List Char → Ways) : Ways :=
  ways.flatMap fun way => (next way.2).map fun way' => (way.1 ++ way'.1, way'.2)

/-- At most `n` rounds, each of which takes something. -/
def rounds (round : Bool → List Char → Ways) : Nat → Bool → List Char → Ways
  | 0, _, s => [([], s)]
  | n + 1, atStart, s =>
      Ways.andThen ((round atStart s).filter fun way => way.2.length < s.length)
        (rounds round n false) ++ [([], s)]

def ways : Regex → Bool → List Char → Ways
  | empty, _, s => [([], s)]
  | char _, _, [] => []
  | char accepts, _, c :: s => if accepts c then [([], s)] else []
  | startOfText, atStart, s => if atStart then [([], s)] else []
  | endOfText, _, s => if s.isEmpty then [([], s)] else []
  | seq a b, atStart, s =>
      (a.ways atStart s).andThen fun rest => b.ways (atStart && rest.length = s.length) rest
  | alt a b, atStart, s => a.ways atStart s ++ b.ways atStart s
  | star a, atStart, s => rounds a.ways s.length atStart s
  | group n a, atStart, s =>
      (a.ways atStart s).map fun way =>
        ((n, s.take (s.length - way.2.length)) :: way.1, way.2)

def searchFrom (r : Regex) : Bool → List Char → Bool
  | atStart, [] => !(r.ways atStart []).isEmpty
  | atStart, c :: s => !(r.ways atStart (c :: s)).isEmpty || searchFrom r false s

/-- `regex.match` -/
def search (r : Regex) (s : List Char) : Bool := r.searchFrom true s

/-- From the front of a text, once `skip` characters are passed over. -/
def findFrom (r : Regex) : Nat → Bool → List Char → List Captures
  | _, _, [] => []
  | skip + 1, _, _ :: s => findFrom r skip false s
  | 0, atStart, c :: s =>
      match r.ways atStart (c :: s) with
      | [] => findFrom r 0 false s
      | (captures, rest) :: _ => captures :: findFrom r (s.length - rest.length) false s

/-- `regex.find_all_string_submatch_n` without a limit, for patterns that take something. -/
def findAll (r : Regex) (s : List Char) : List Captures := r.findFrom 0 true s

/-! ## Patterns in use -/

def lit : List Char → Regex
  | [] => empty
  | [c] => char (· = c)
  | c :: cs => seq (char (· = c)) (lit cs)

def text (s : String) : Regex := lit (Json.chars s)

/-- The first of several that goes on. -/
def oneOf : List Regex → Regex
  | [] => empty
  | [r] => r
  | r :: rs => alt r (oneOf rs)

/-- One after another. -/
def all : List Regex → Regex
  | [] => empty
  | [r] => r
  | r :: rs => seq r (all rs)

def optional (r : Regex) : Regex := alt r empty

def times (r : Regex) : Nat → Regex
  | 0 => empty
  | n + 1 => seq r (times r n)

def upTo (r : Regex) : Nat → Regex
  | 0 => empty
  | n + 1 => optional (seq r (upTo r n))

/-- `r{least,most}` -/
def between (r : Regex) (least most : Nat) : Regex := seq (r.times least) (r.upTo (most - least))

/-- `r{least,}` -/
def atLeast (r : Regex) (least : Nat) : Regex := seq (r.times least) (star r)

/-- The representative of a letter under simple case folding, for patterns in small letters. -/
def fold (c : Char) : Char :=
  if c = '\u212A' then 'k' else if c = '\u017F' then 's' else c.toLower

/-- `(?i)` -/
def ignoreCase : Regex → Regex
  | empty => empty
  | char accepts => char fun c => accepts (fold c)
  | startOfText => startOfText
  | endOfText => endOfText
  | seq a b => seq a.ignoreCase b.ignoreCase
  | alt a b => alt a.ignoreCase b.ignoreCase
  | star a => star a.ignoreCase
  | group n a => group n a.ignoreCase

/-! ## What a pattern accepts -/

/-- `r` matches `word` between `before` and `after`. -/
inductive Matches : Regex → List Char → List Char → List Char → Prop where
  | empty (before after : List Char) : Matches empty before [] after
  | char {accepts : Char → Bool} {c : Char} (h : accepts c = true) (before after : List Char) :
      Matches (char accepts) before [c] after
  | startOfText (after : List Char) : Matches startOfText [] [] after
  | endOfText (before : List Char) : Matches endOfText before [] []
  | seq {a b : Regex} {before word word' after : List Char} :
      Matches a before word (word' ++ after) → Matches b (before ++ word) word' after →
      Matches (seq a b) before (word ++ word') after
  | altLeft {a : Regex} (b : Regex) {before word after : List Char} :
      Matches a before word after → Matches (alt a b) before word after
  | altRight (a : Regex) {b : Regex} {before word after : List Char} :
      Matches b before word after → Matches (alt a b) before word after
  | starNil (a : Regex) (before after : List Char) : Matches (star a) before [] after
  | starCons {a : Regex} {before word word' after : List Char} :
      Matches a before word (word' ++ after) → Matches (star a) (before ++ word) word' after →
      Matches (star a) before (word ++ word') after
  | group (n : Nat) {a : Regex} {before word after : List Char} :
      Matches a before word after → Matches (group n a) before word after

theorem Ways.mem_andThen {ways : Ways} {next : List Char → Ways} {rest : List Char} :
    (∃ captures, (captures, rest) ∈ ways.andThen next) ↔
      ∃ captures middle, (captures, middle) ∈ ways ∧ ∃ captures', (captures', rest) ∈ next middle := by
  constructor
  · rintro ⟨captures, h⟩
    obtain ⟨way, hway, h⟩ := List.mem_flatMap.mp h
    obtain ⟨way', hway', heq⟩ := List.mem_map.mp h
    obtain ⟨-, rfl⟩ := Prod.mk.inj heq
    exact ⟨way.1, way.2, hway, way'.1, hway'⟩
  · rintro ⟨captures, middle, h, captures', h'⟩
    exact ⟨_, List.mem_flatMap.mpr ⟨_, h, List.mem_map.mpr ⟨_, h', rfl⟩⟩⟩

theorem rounds_mono {round : Bool → List Char → Ways} {n m : Nat} (h : n ≤ m) {atStart : Bool}
    {s rest : List Char} (hway : ∃ captures, (captures, rest) ∈ rounds round n atStart s) :
    ∃ captures, (captures, rest) ∈ rounds round m atStart s := by
  induction n generalizing m atStart s with
  | zero =>
      obtain ⟨captures, hway⟩ := hway
      obtain ⟨-, rfl⟩ := Prod.mk.inj (List.mem_singleton.mp hway)
      cases m with
      | zero => exact ⟨[], List.mem_singleton_self _⟩
      | succ m => exact ⟨[], List.mem_append_right _ (List.mem_singleton_self _)⟩
  | succ n ih =>
      obtain ⟨m, rfl⟩ : ∃ k, m = k + 1 := ⟨m - 1, by omega⟩
      obtain ⟨captures, hway⟩ := hway
      rcases List.mem_append.mp hway with hway | hway
      · obtain ⟨captures, middle, hround, hrest⟩ := Ways.mem_andThen.mp ⟨captures, hway⟩
        obtain ⟨captures', h'⟩ := Ways.mem_andThen.mpr
          ⟨captures, middle, hround, ih (Nat.le_of_succ_le_succ h) hrest⟩
        exact ⟨captures', List.mem_append_left _ h'⟩
      · exact ⟨captures, List.mem_append_right _ hway⟩

/-- After a word that was taken, the text has started exactly when the word is not empty. -/
theorem isEmpty_append {before word rest s : List Char} (hs : s = word ++ rest) :
    (before ++ word).isEmpty = (before.isEmpty && decide (rest.length = s.length)) := by
  rw [hs, List.length_append]
  cases before with
  | cons b before => rfl
  | nil =>
      cases word with
      | nil => simp
      | cons c word => simp

theorem matches_of_mem_rounds {a : Regex}
    (hround : ∀ {before s captures rest}, (captures, rest) ∈ a.ways before.isEmpty s →
      ∃ word, s = word ++ rest ∧ Matches a before word rest) :
    ∀ {n : Nat} {before s captures rest}, (captures, rest) ∈ rounds a.ways n before.isEmpty s →
      ∃ word, s = word ++ rest ∧ Matches (star a) before word rest := by
  intro n
  induction n with
  | zero =>
      intro before s captures rest h
      obtain ⟨-, rfl⟩ := Prod.mk.inj (List.mem_singleton.mp h)
      exact ⟨[], rfl, .starNil a _ _⟩
  | succ n ih =>
      intro before s captures rest h
      rcases List.mem_append.mp h with h | h
      · obtain ⟨captures, middle, hfirst, captures', hlater⟩ := Ways.mem_andThen.mp ⟨captures, h⟩
        obtain ⟨hfirst, hshorter⟩ := List.mem_filter.mp hfirst
        obtain ⟨word, hs, hword⟩ := hround hfirst
        have hstarted : (before ++ word).isEmpty = false := by
          rw [isEmpty_append hs]
          have hlt := of_decide_eq_true hshorter
          simp [Nat.ne_of_lt hlt]
        rw [← hstarted] at hlater
        obtain ⟨word', hmiddle, hword'⟩ := ih hlater
        rw [hmiddle] at hs hword
        exact ⟨word ++ word', by rw [hs, List.append_assoc], .starCons hword hword'⟩
      · obtain ⟨-, rfl⟩ := Prod.mk.inj (List.mem_singleton.mp h)
        exact ⟨[], rfl, .starNil a _ _⟩

/-- Every way to match is a match. -/
theorem matches_of_mem_ways (r : Regex) :
    ∀ {before s captures rest}, (captures, rest) ∈ r.ways before.isEmpty s →
      ∃ word, s = word ++ rest ∧ Matches r before word rest := by
  induction r with
  | empty =>
      intro before s captures rest h
      obtain ⟨-, rfl⟩ := Prod.mk.inj (List.mem_singleton.mp h)
      exact ⟨[], rfl, .empty _ _⟩
  | char accepts =>
      intro before s captures rest h
      cases s with
      | nil => cases h
      | cons c s =>
          rw [ways] at h
          split at h
          · rename_i hc
            obtain ⟨-, rfl⟩ := Prod.mk.inj (List.mem_singleton.mp h)
            exact ⟨[c], rfl, .char hc _ _⟩
          · cases h
  | startOfText =>
      intro before s captures rest h
      rw [ways] at h
      split at h
      · rename_i hstart
        obtain ⟨-, rfl⟩ := Prod.mk.inj (List.mem_singleton.mp h)
        obtain rfl := List.isEmpty_iff.mp hstart
        exact ⟨[], rfl, .startOfText _⟩
      · cases h
  | endOfText =>
      intro before s captures rest h
      rw [ways] at h
      split at h
      · rename_i hend
        obtain ⟨-, rfl⟩ := Prod.mk.inj (List.mem_singleton.mp h)
        obtain rfl := List.isEmpty_iff.mp hend
        exact ⟨[], rfl, .endOfText _⟩
      · cases h
  | seq a b iha ihb =>
      intro before s captures rest h
      obtain ⟨captures, middle, hfirst, captures', hlater⟩ := Ways.mem_andThen.mp ⟨captures, h⟩
      obtain ⟨word, hs, hword⟩ := iha hfirst
      rw [← isEmpty_append hs] at hlater
      obtain ⟨word', hmiddle, hword'⟩ := ihb hlater
      rw [hmiddle] at hs hword
      exact ⟨word ++ word', by rw [hs, List.append_assoc], .seq hword hword'⟩
  | alt a b iha ihb =>
      intro before s captures rest h
      rcases List.mem_append.mp h with h | h
      · obtain ⟨word, hs, hword⟩ := iha h
        exact ⟨word, hs, .altLeft b hword⟩
      · obtain ⟨word, hs, hword⟩ := ihb h
        exact ⟨word, hs, .altRight a hword⟩
  | star a iha =>
      intro before s captures rest h
      exact matches_of_mem_rounds iha h
  | group n a iha =>
      intro before s captures rest h
      obtain ⟨way, hway, heq⟩ := List.mem_map.mp h
      obtain ⟨-, rfl⟩ := Prod.mk.inj heq
      obtain ⟨word, hs, hword⟩ := iha hway
      exact ⟨word, hs, .group n hword⟩

/-- Every match is among the ways. -/
theorem mem_ways_of_matches {r : Regex} {before word after : List Char}
    (h : Matches r before word after) :
    ∃ captures, (captures, after) ∈ r.ways before.isEmpty (word ++ after) := by
  induction h with
  | empty before after => exact ⟨[], List.mem_singleton_self _⟩
  | @char accepts c h before after =>
      refine ⟨[], ?_⟩
      rw [List.singleton_append, ways, if_pos h]
      exact List.mem_singleton_self _
  | startOfText after => exact ⟨[], List.mem_singleton_self _⟩
  | endOfText before => exact ⟨[], List.mem_singleton_self _⟩
  | @seq a b before word word' after ha hb iha ihb =>
      rw [← List.append_assoc] at iha
      rw [isEmpty_append (Eq.refl (word ++ (word' ++ after))), ← List.append_assoc] at ihb
      obtain ⟨captures, hfirst⟩ := iha
      exact Ways.mem_andThen.mpr ⟨captures, _, hfirst, ihb⟩
  | altLeft b h ih =>
      obtain ⟨captures, ih⟩ := ih
      exact ⟨captures, List.mem_append_left _ ih⟩
  | altRight a h ih =>
      obtain ⟨captures, ih⟩ := ih
      exact ⟨captures, List.mem_append_right _ ih⟩
  | starNil a before after =>
      rw [List.nil_append, ways]
      exact rounds_mono (Nat.zero_le _) ⟨[], List.mem_singleton_self _⟩
  | @starCons a before word word' after ha hb iha ihb =>
      cases word with
      | nil =>
          rw [List.append_nil] at ihb
          exact ihb
      | cons c word =>
          rw [← List.append_assoc] at iha
          obtain ⟨captures, hfirst⟩ := iha
          have hlater : ∃ captures, (captures, after) ∈
              rounds a.ways ((word ++ word') ++ after).length false (word' ++ after) := by
            rw [ways, isEmpty_append (Eq.refl (c :: word ++ (word' ++ after)))] at ihb
            have hstarted : (before.isEmpty && decide ((word' ++ after).length =
                (c :: word ++ (word' ++ after)).length)) = false := by
              have hne : (word' ++ after).length ≠ (c :: word ++ (word' ++ after)).length := by
                rw [@List.length_append _ (c :: word), List.length_cons]
                omega
              rw [decide_eq_false hne, Bool.and_false]
            rw [hstarted] at ihb
            refine rounds_mono ?_ ihb
            simp
          have hshorter : (word' ++ after).length < (c :: word ++ word' ++ after).length := by
            rw [List.append_assoc, @List.length_append _ (c :: word), List.length_cons]
            omega
          have hkept : (captures, word' ++ after) ∈
              (a.ways before.isEmpty (c :: word ++ word' ++ after)).filter fun way =>
                way.2.length < (c :: word ++ word' ++ after).length :=
            List.mem_filter.mpr ⟨hfirst, decide_eq_true hshorter⟩
          obtain ⟨captures', hway⟩ := Ways.mem_andThen.mpr ⟨captures, _, hkept, hlater⟩
          exact ⟨captures', List.mem_append_left _ hway⟩
  | group n h ih =>
      obtain ⟨captures, ih⟩ := ih
      exact ⟨_, List.mem_map.mpr ⟨_, ih, rfl⟩⟩

theorem ways_eq_nil_iff {r : Regex} {before s : List Char} :
    r.ways before.isEmpty s = [] ↔ ∀ word after, s = word ++ after → ¬ Matches r before word after := by
  constructor
  · rintro hnil word after rfl hmatches
    obtain ⟨captures, hway⟩ := mem_ways_of_matches hmatches
    rw [hnil] at hway
    cases hway
  · intro hnone
    refine List.eq_nil_iff_forall_not_mem.mpr fun way hway => ?_
    obtain ⟨word, hs, hmatches⟩ := @matches_of_mem_ways r before _ _ _ hway
    exact hnone word way.2 hs hmatches

theorem searchFrom_iff {r : Regex} : ∀ {before s : List Char},
    r.searchFrom before.isEmpty s = true ↔
      ∃ skipped word after, s = skipped ++ word ++ after ∧ Matches r (before ++ skipped) word after
  | before, [] => by
      rw [searchFrom, Bool.not_eq_true', List.isEmpty_eq_false_iff, ne_eq, ways_eq_nil_iff]
      constructor
      · intro h
        push Not at h
        obtain ⟨word, after, hs, hmatches⟩ := h
        exact ⟨[], word, after, hs, by rwa [List.append_nil]⟩
      · rintro ⟨skipped, word, after, hs, hmatches⟩ hnone
        obtain ⟨hs', rfl⟩ := List.append_eq_nil_iff.mp hs.symm
        obtain ⟨rfl, rfl⟩ := List.append_eq_nil_iff.mp hs'
        rw [List.append_nil] at hmatches
        exact hnone [] [] rfl hmatches
  | before, c :: s => by
      have ih := @searchFrom_iff r (before ++ [c]) s
      have hstarted : (before ++ [c]).isEmpty = false := by simp
      rw [hstarted] at ih
      rw [searchFrom, Bool.or_eq_true, Bool.not_eq_true', List.isEmpty_eq_false_iff, ne_eq,
        ways_eq_nil_iff, ih]
      constructor
      · rintro (h | ⟨skipped, word, after, rfl, hmatches⟩)
        · push Not at h
          obtain ⟨word, after, hs, hmatches⟩ := h
          exact ⟨[], word, after, hs, by rwa [List.append_nil]⟩
        · refine ⟨c :: skipped, word, after, rfl, ?_⟩
          rwa [List.append_assoc, List.singleton_append] at hmatches
      · rintro ⟨skipped, word, after, hs, hmatches⟩
        cases skipped with
        | nil =>
            rw [List.append_nil] at hmatches
            exact Or.inl fun hnone => hnone word after hs hmatches
        | cons d skipped =>
            obtain ⟨rfl, rfl⟩ := List.cons_eq_cons.mp hs
            refine Or.inr ⟨skipped, word, after, rfl, ?_⟩
            rwa [List.append_assoc, List.singleton_append]

/-- **A search finds a pattern exactly when it matches somewhere.** -/
theorem search_iff {r : Regex} {s : List Char} : r.search s = true ↔
    ∃ before word after, s = before ++ word ++ after ∧ Matches r before word after :=
  @searchFrom_iff r [] s

/-! ## The words of a pattern -/

theorem matches_char {accepts : Char → Bool} {before word after : List Char} :
    Matches (char accepts) before word after ↔ ∃ c, word = [c] ∧ accepts c = true := by
  constructor
  · intro h
    cases h with
    | char h => exact ⟨_, rfl, h⟩
  · rintro ⟨c, rfl, h⟩
    exact .char h before after

theorem matches_seq {a b : Regex} {before word after : List Char} :
    Matches (seq a b) before word after ↔ ∃ u v, word = u ++ v ∧
      Matches a before u (v ++ after) ∧ Matches b (before ++ u) v after := by
  constructor
  · intro h
    cases h with
    | seq ha hb => exact ⟨_, _, rfl, ha, hb⟩
  · rintro ⟨u, v, rfl, ha, hb⟩
    exact .seq ha hb

theorem matches_alt {a b : Regex} {before word after : List Char} :
    Matches (alt a b) before word after ↔
      Matches a before word after ∨ Matches b before word after := by
  constructor
  · intro h
    cases h with
    | altLeft _ h => exact Or.inl h
    | altRight _ h => exact Or.inr h
  · rintro (h | h)
    · exact .altLeft b h
    · exact .altRight a h

theorem matches_group {n : Nat} {a : Regex} {before word after : List Char} :
    Matches (group n a) before word after ↔ Matches a before word after := by
  constructor
  · intro h
    cases h with
    | group _ h => exact h
  · exact .group n

theorem matches_empty {before word after : List Char} :
    Matches empty before word after ↔ word = [] := by
  constructor
  · intro h
    cases h
    rfl
  · rintro rfl
    exact .empty before after

theorem matches_lit : ∀ {cs before word after : List Char},
    Matches (lit cs) before word after ↔ word = cs
  | [], _, _, _ => matches_empty
  | [c], _, _, _ => by simp [lit, matches_char]
  | c :: d :: cs, before, word, after => by
      change Matches (seq (char (· = c)) (lit (d :: cs))) before word after ↔ _
      rw [matches_seq]
      constructor
      · rintro ⟨u, v, rfl, hu, hv⟩
        obtain ⟨e, rfl, he⟩ := matches_char.mp hu
        rw [matches_lit.mp hv, of_decide_eq_true he]
        rfl
      · rintro rfl
        exact ⟨[c], d :: cs, rfl, matches_char.mpr ⟨c, rfl, decide_eq_true rfl⟩, matches_lit.mpr rfl⟩

/-! ## Every place where a pattern is found -/

/-- What `r` matches begins with `c` and has no other `c`, so that no match
starts inside another. -/
def HeadedBy (r : Regex) (c : Char) : Prop :=
  ∀ {before word after : List Char}, Matches r before word after → ∃ tail, word = c :: tail ∧ c ∉ tail

theorem HeadedBy.ways_eq_nil {r : Regex} {c d : Char} (h : r.HeadedBy c) (hd : d ≠ c)
    (atStart : Bool) (s : List Char) : r.ways atStart (d :: s) = [] := by
  obtain ⟨before, rfl⟩ : ∃ before : List Char, atStart = before.isEmpty := by
    cases atStart with
    | true => exact ⟨[], rfl⟩
    | false => exact ⟨[d], rfl⟩
  refine ways_eq_nil_iff.mpr fun word after hs hmatches => ?_
  obtain ⟨tail, rfl, -⟩ := h hmatches
  exact hd (List.cons.inj hs).1

/-- The first way at each place in turn, passing over nothing. -/
def starts (r : Regex) : Bool → List Char → List (Captures × List Char)
  | _, [] => []
  | atStart, c :: s => (r.ways atStart (c :: s)).head?.toList ++ starts r false s

theorem HeadedBy.findFrom_eq {r : Regex} {c : Char} (h : r.HeadedBy c) :
    ∀ {skip : Nat} {before s : List Char}, c ∉ s.take skip →
      r.findFrom skip before.isEmpty s = (r.starts before.isEmpty s).map Prod.fst
  | _, _, [], _ => by simp [findFrom, starts]
  | skip + 1, before, d :: s, hskip => by
      rw [List.take_succ_cons, List.mem_cons, not_or] at hskip
      have hnext := @HeadedBy.findFrom_eq r c h skip [d] s hskip.2
      rw [findFrom, starts, h.ways_eq_nil (Ne.symm hskip.1)]
      exact hnext
  | 0, before, d :: s, _ => by
      rw [findFrom, starts]
      cases hways : r.ways before.isEmpty (d :: s) with
      | nil => exact @HeadedBy.findFrom_eq r c h 0 [d] s (by simp)
      | cons way ways =>
          have hway : (way.1, way.2) ∈ r.ways before.isEmpty (d :: s) := by
            rw [hways]
            exact List.mem_cons_self
          obtain ⟨word, hs, hmatches⟩ := matches_of_mem_ways r hway
          obtain ⟨tail, rfl, htail⟩ := h hmatches
          obtain ⟨rfl, rfl⟩ := List.cons.inj hs
          have hpassed : (tail ++ way.2).take ((tail ++ way.2).length - way.2.length) = tail := by
            rw [List.length_append, Nat.add_sub_cancel]
            exact List.take_left' rfl
          have hnext := @HeadedBy.findFrom_eq r d h ((tail ++ way.2).length - way.2.length) [d]
            (tail ++ way.2) (by rwa [hpassed])
          exact congrArg (way.1 :: ·) hnext

theorem HeadedBy.findAll_eq {r : Regex} {c : Char} (h : r.HeadedBy c) (s : List Char) :
    r.findAll s = (r.starts true s).map Prod.fst :=
  @HeadedBy.findFrom_eq r c h 0 [] s (by simp)

/-- The place here, then those further on. -/
theorem starts_cons (r : Regex) (before : List Char) (d : Char) (s : List Char) :
    r.starts before.isEmpty (d :: s) =
      (r.ways before.isEmpty (d :: s)).head?.toList ++ r.starts (before ++ [d]).isEmpty s := by
  have hstarted : (before ++ [d]).isEmpty = false := by simp
  rw [starts, hstarted]

/-- Every match is at one of the places. -/
theorem starts_ne_nil {r : Regex} {before skipped word after : List Char} (hword : word ≠ [])
    (h : Matches r (before ++ skipped) word after) :
    r.starts before.isEmpty (skipped ++ word ++ after) ≠ [] := by
  induction skipped generalizing before with
  | nil =>
      obtain ⟨d, word, rfl⟩ := List.exists_cons_of_ne_nil hword
      rw [List.append_nil] at h
      obtain ⟨captures, hway⟩ := mem_ways_of_matches h
      change r.starts before.isEmpty (d :: (word ++ after)) ≠ []
      rw [starts_cons]
      cases hways : r.ways before.isEmpty (d :: (word ++ after)) with
      | nil =>
          rw [List.cons_append, hways] at hway
          cases hway
      | cons way ways => exact List.cons_ne_nil _ _
  | cons d skipped ih =>
      have hrest := @ih (before ++ [d]) (by rwa [List.append_assoc])
      change r.starts before.isEmpty (d :: (skipped ++ word ++ after)) ≠ []
      rw [starts_cons]
      exact List.append_ne_nil_of_right_ne_nil _ hrest

/-- When there is one place, it is the only match. -/
theorem starts_eq_singleton {r : Regex} {c : Char} (h : r.HeadedBy c) {way : Captures × List Char} :
    ∀ {before s : List Char}, r.starts before.isEmpty s = [way] →
      ∃ skipped word, s = skipped ++ word ++ way.2 ∧
        way ∈ r.ways (before ++ skipped).isEmpty (word ++ way.2) ∧
        ∀ skipped' word' after', s = skipped' ++ word' ++ after' →
          Matches r (before ++ skipped') word' after' → skipped' = skipped
  | _, [], hone => by cases hone
  | before, d :: s, hone => by
      rw [starts_cons] at hone
      cases hways : r.ways before.isEmpty (d :: s) with
      | nil =>
          rw [hways] at hone
          obtain ⟨skipped, word, rfl, hway, honly⟩ := starts_eq_singleton h hone
          refine ⟨d :: skipped, word, rfl, by rwa [List.append_assoc] at hway, ?_⟩
          rintro skipped' word' after' hs hmatches
          cases skipped' with
          | nil =>
              rw [List.append_nil] at hmatches
              exact absurd hmatches (ways_eq_nil_iff.mp hways _ _ hs)
          | cons e skipped' =>
              obtain ⟨rfl, htail⟩ := List.cons.inj hs
              rw [honly skipped' word' after' htail (by rwa [List.append_assoc])]
      | cons first ways =>
          rw [hways] at hone
          obtain ⟨rfl, hnone⟩ := List.cons.inj hone
          have hmem : (first.1, first.2) ∈ r.ways before.isEmpty (d :: s) := by
            rw [hways]
            exact List.mem_cons_self
          obtain ⟨word, hs, hmatches⟩ := matches_of_mem_ways r hmem
          refine ⟨[], word, hs, ?_, ?_⟩
          · rw [List.append_nil, ← hs]
            exact hmem
          · rintro skipped' word' after' hs' hmatches'
            cases skipped' with
            | nil => rfl
            | cons e skipped' =>
                -- a match further on would have a place too
                obtain ⟨rfl, rfl⟩ := List.cons.inj hs'
                obtain ⟨tail, hword', -⟩ := h hmatches'
                have hne : word' ≠ [] := by simp [hword']
                have hlater : Matches r ((before ++ [d]) ++ skipped') word' after' := by
                  rwa [List.append_assoc]
                exact absurd hnone (starts_ne_nil hne hlater)

/-- **One submatch of all: one match, and it is the one that was taken.** -/
theorem findAll_eq_singleton {r : Regex} {c : Char} (h : r.HeadedBy c) {s : List Char}
    {captures : Captures} (hone : r.findAll s = [captures]) :
    ∃ before word after, s = before ++ word ++ after ∧
      (captures, after) ∈ r.ways before.isEmpty (word ++ after) ∧
      ∀ before' word' after', s = before' ++ word' ++ after' →
        Matches r before' word' after' → before' = before := by
  rw [h.findAll_eq] at hone
  obtain ⟨way, hway, rfl⟩ := List.map_eq_singleton_iff.mp hone
  obtain ⟨before, word, hs, hmem, honly⟩ := @starts_eq_singleton r c h way [] s hway
  exact ⟨before, word, way.2, hs, hmem, honly⟩

/-- Without a match there is no place. -/
theorem starts_eq_nil {r : Regex} : ∀ {before s : List Char},
    (∀ skipped word after, s = skipped ++ word ++ after → ¬ Matches r (before ++ skipped) word after) →
      r.starts before.isEmpty s = []
  | _, [], _ => rfl
  | before, d :: s, hnone => by
      have hrest : r.starts (before ++ [d]).isEmpty s = [] := by
        refine starts_eq_nil fun skipped word after hs hmatches => ?_
        refine hnone (d :: skipped) word after (by rw [hs]; rfl) ?_
        rwa [List.append_assoc] at hmatches
      have hhere : r.ways before.isEmpty (d :: s) = [] := by
        refine ways_eq_nil_iff.mpr fun word after hs hmatches => ?_
        exact hnone [] word after hs (by rwa [List.append_nil])
      rw [starts_cons, hhere, hrest]
      rfl

/-- The only match has the only place. -/
theorem starts_of_only {r : Regex} {skipped word after : List Char} (hword : word ≠ []) :
    ∀ {before : List Char}, Matches r (before ++ skipped) word after →
      (∀ skipped' word' after', skipped ++ word ++ after = skipped' ++ word' ++ after' →
        Matches r (before ++ skipped') word' after' → skipped' = skipped) →
      ∃ way, r.starts before.isEmpty (skipped ++ word ++ after) = [way] := by
  induction skipped with
  | nil =>
      intro before hmatches honly
      obtain ⟨d, word, rfl⟩ := List.exists_cons_of_ne_nil hword
      -- a match further on would be a second one
      have hrest : r.starts (before ++ [d]).isEmpty (word ++ after) = [] := by
        refine starts_eq_nil fun skipped' word' after' hs hmatches' => ?_
        rw [List.append_assoc] at hmatches'
        have hsame := honly (d :: skipped') word' after' (congrArg (d :: ·) hs) hmatches'
        cases hsame
      rw [List.append_nil] at hmatches
      obtain ⟨captures, hway⟩ := mem_ways_of_matches hmatches
      rw [List.cons_append] at hway
      cases hways : r.ways before.isEmpty (d :: (word ++ after)) with
      | nil =>
          rw [hways] at hway
          cases hway
      | cons way ways =>
          refine ⟨way, ?_⟩
          change r.starts before.isEmpty (d :: (word ++ after)) = [way]
          rw [starts_cons, hways, hrest]
          rfl
  | cons d skipped ih =>
      intro before hmatches honly
      have hhere : r.ways before.isEmpty (d :: (skipped ++ word ++ after)) = [] := by
        refine ways_eq_nil_iff.mpr fun word' after' hs hmatches' => ?_
        have hsame := honly [] word' after' hs (by rwa [List.append_nil])
        cases hsame
      obtain ⟨way, hone⟩ := @ih (before ++ [d]) (by rwa [List.append_assoc])
        fun skipped' word' after' hs hmatches' => by
          rw [List.append_assoc] at hmatches'
          exact (List.cons.inj (honly (d :: skipped') word' after' (congrArg (d :: ·) hs)
            hmatches')).2
      refine ⟨way, ?_⟩
      change r.starts before.isEmpty (d :: (skipped ++ word ++ after)) = [way]
      rw [starts_cons, hhere, hone]
      rfl

/-- **There is one submatch exactly when there is one match.** -/
theorem findAll_eq_singleton_iff {r : Regex} {c : Char} (h : r.HeadedBy c) {s : List Char} :
    (∃ captures, r.findAll s = [captures]) ↔
      ∃ before word after, s = before ++ word ++ after ∧ Matches r before word after ∧
        ∀ before' word' after', s = before' ++ word' ++ after' →
          Matches r before' word' after' → before' = before := by
  constructor
  · rintro ⟨captures, hone⟩
    obtain ⟨before, word, after, hs, hway, honly⟩ := findAll_eq_singleton h hone
    obtain ⟨word', hs', hmatches⟩ := matches_of_mem_ways r hway
    obtain rfl := List.append_cancel_right hs'
    exact ⟨before, word, after, hs, hmatches, honly⟩
  · rintro ⟨before, word, after, rfl, hmatches, honly⟩
    obtain ⟨tail, rfl, -⟩ := h hmatches
    obtain ⟨way, hone⟩ := @starts_of_only r before (c :: tail) after (List.cons_ne_nil _ _) []
      hmatches honly
    refine ⟨way.1, ?_⟩
    rw [h.findAll_eq]
    exact congrArg (List.map Prod.fst) hone

/-! ## What a group took -/

theorem captures_lit : ∀ {cs s rest : List Char} {atStart : Bool} {captures : Captures},
    (captures, rest) ∈ (lit cs).ways atStart s → captures = []
  | [], _, _, _, _, h => (Prod.mk.inj (List.mem_singleton.mp h)).1
  | [_], [], _, _, _, h => by cases h
  | [c], d :: s, _, _, _, h => by
      rw [lit, ways] at h
      split at h
      · exact (Prod.mk.inj (List.mem_singleton.mp h)).1
      · cases h
  | _ :: _ :: _, [], _, _, _, h => by cases h
  | c :: c' :: cs, d :: s, _, _, _, h => by
      obtain ⟨way, hway, h⟩ := List.mem_flatMap.mp h
      obtain ⟨way', hway', heq⟩ := List.mem_map.mp h
      obtain ⟨rfl, -⟩ := Prod.mk.inj heq
      rw [ways] at hway
      split at hway
      · rw [List.mem_singleton.mp hway, List.nil_append]
        exact captures_lit hway'
      · cases hway

/-- After a literal prefix, a group takes the rest of the match. -/
theorem lookup_lit_group {cs s rest : List Char} {n : Nat} {a : Regex} {before : List Char}
    {captures : Captures} (h : (captures, rest) ∈ (seq (lit cs) (group n a)).ways before.isEmpty s) :
    ∃ word, s = cs ++ word ++ rest ∧ Matches a (before ++ cs) word rest ∧
      captures.lookup n = some word := by
  obtain ⟨way, hway, h⟩ := List.mem_flatMap.mp h
  obtain ⟨way', hway', heq⟩ := List.mem_map.mp h
  obtain ⟨rfl, rfl⟩ := Prod.mk.inj heq
  have hempty : way.1 = [] := captures_lit hway
  obtain ⟨word, hs, hword⟩ := matches_of_mem_ways _ hway
  obtain rfl := matches_lit.mp hword
  change way' ∈ (group n a).ways (before.isEmpty && decide (way.2.length = s.length)) way.2 at hway'
  rw [← isEmpty_append hs] at hway'
  obtain ⟨inner, hinner, rfl⟩ := List.mem_map.mp hway'
  obtain ⟨word', hmiddle, hword'⟩ := matches_of_mem_ways a hinner
  refine ⟨word', by rw [hs, hmiddle, List.append_assoc], hword', ?_⟩
  have htaken : way.2.take (way.2.length - inner.2.length) = word' := by
    rw [hmiddle, List.length_append, Nat.add_sub_cancel]
    exact List.take_left' rfl
  rw [hempty, htaken]
  simp

end Regex
