import Mathlib.Data.List.Basic

/-!
# Cleaning a path

A relative path leads some levels up and then down through named directories;
`resolve` computes that place, one element after the other. The place of a
path below another one is determined by the two places alone (`resolve_append`),
however the second path is written. `clean` writes the place down again: it is
Go's `path.Clean`.
-/

namespace LexicalPath

/-- How far up, and the names from there on, the last one first. -/
structure Place (Name : Type) where
  ups : Nat
  names : List Name
deriving DecidableEq

namespace Place

variable {Name : Type}

def here : Place Name := ⟨0, []⟩

def up : Place Name → Place Name
  | ⟨ups, []⟩ => ⟨ups + 1, []⟩
  | ⟨ups, _ :: names⟩ => ⟨ups, names⟩

def down (p : Place Name) (name : Name) : Place Name := ⟨p.ups, name :: p.names⟩

/-- `q` as seen from `p`. -/
def below (p q : Place Name) : Place Name :=
  ⟨p.ups + (q.ups - p.names.length), q.names ++ p.names.drop q.ups⟩

@[simp] theorem below_here (p : Place Name) : p.below here = p := by
  simp [below, here]

@[simp] theorem below_down (p q : Place Name) (name : Name) :
    p.below (q.down name) = (p.below q).down name := rfl

theorem below_up (p q : Place Name) : p.below q.up = (p.below q).up := by
  obtain ⟨ups, names⟩ := q
  cases names with
  | cons name names => rfl
  | nil =>
      change (⟨p.ups + (ups + 1 - p.names.length), p.names.drop (ups + 1)⟩ : Place Name) =
        up ⟨p.ups + (ups - p.names.length), p.names.drop ups⟩
      by_cases h : ups < p.names.length
      · -- one more of the names of `p` is taken back
        rw [List.drop_eq_getElem_cons h, up, Nat.sub_eq_zero_of_le h,
          Nat.sub_eq_zero_of_le (Nat.le_of_lt h)]
      · have hle := Nat.le_of_not_lt h
        rw [List.drop_of_length_le hle, List.drop_of_length_le (Nat.le_succ_of_le hle), up,
          Nat.sub_add_comm hle]
        rfl

end Place

/-! ## Elements -/

abbrev Name : Type := List Char

def dot : Name := ['.']

def dotDot : Name := ['.', '.']

/-- One element of a path. -/
def walk (p : Place Name) (element : Name) : Place Name :=
  if element = [] ∨ element = dot then p
  else if element = dotDot then p.up
  else p.down element

def resolve (elements : List Name) : Place Name := elements.foldl walk .here

theorem walk_below (p q : Place Name) (element : Name) :
    walk (p.below q) element = p.below (walk q element) := by
  unfold walk
  split
  · rfl
  · split
    · exact (Place.below_up p q).symm
    · rfl

theorem foldl_walk_below (p q : Place Name) (elements : List Name) :
    elements.foldl walk (p.below q) = p.below (elements.foldl walk q) := by
  induction elements generalizing q with
  | nil => rfl
  | cons element elements ih => rw [List.foldl_cons, List.foldl_cons, walk_below, ih]

/-- **A path below another one** leads to the place of the second as seen from
the first. -/
theorem resolve_append (base elements : List Name) :
    resolve (base ++ elements) = (resolve base).below (resolve elements) := by
  have h := foldl_walk_below (resolve base) .here elements
  rw [Place.below_here] at h
  rw [resolve, List.foldl_append]
  exact h

/-- A name that is neither empty nor a dot element, without a slash. -/
structure Proper (name : Name) : Prop where
  ne_nil : name ≠ []
  ne_dot : name ≠ dot
  ne_dotDot : name ≠ dotDot
  noSlash : '/' ∉ name

/-- Only proper names are walked down. -/
theorem proper_of_resolve {elements : List Name} (h : ∀ e ∈ elements, '/' ∉ e) :
    ∀ name ∈ (resolve elements).names, Proper name := by
  have hwalk : ∀ (p : Place Name), (∀ name ∈ p.names, Proper name) →
      ∀ name ∈ (elements.foldl walk p).names, Proper name := by
    induction elements with
    | nil => exact fun p hp => hp
    | cons element elements ih =>
        intro p hp
        refine ih (fun e he => h e (List.mem_cons_of_mem _ he)) (walk p element) ?_
        unfold walk
        split
        · exact hp
        · rename_i hplain
          split
          · obtain ⟨ups, names⟩ := p
            cases names with
            | nil => exact fun name hname => hp name hname
            | cons n names => exact fun name hname => hp name (List.mem_cons_of_mem _ hname)
          · rename_i hdots
            intro name hname
            rcases List.mem_cons.mp hname with rfl | hname
            · exact ⟨fun h => hplain (Or.inl h), fun h => hplain (Or.inr h), hdots,
                h _ List.mem_cons_self⟩
            · exact hp name hname
  exact hwalk .here (fun name hname => by cases hname)

/-! ## Texts -/

def elements (path : List Char) : List Name := path.splitOn '/'

def join (names : List Name) : List Char := ['/'].intercalate names

/-- `path.Clean`. -/
def clean (path : List Char) : List Char :=
  let p := resolve (elements path)
  if path.head? = some '/' then '/' :: join p.names.reverse
  else if p = .here then dot
  else join (List.replicate p.ups dotDot ++ p.names.reverse)

example : clean "a//b/./../c/".toList = "a/c".toList ∧ clean "/../a".toList = "/a".toList ∧
    clean "a/../../b".toList = "../b".toList ∧ clean [] = ".".toList := by
  decide

theorem noSlash_of_mem_elements {path : List Char} {name : Name} (h : name ∈ elements path) :
    '/' ∉ name := by
  induction path generalizing name with
  | nil =>
      rw [List.mem_singleton.mp h]
      exact List.not_mem_nil
  | cons c path ih =>
      rw [elements, List.splitOn_cons_eq_if_modifyHead] at h
      split at h
      · rcases List.mem_cons.mp h with rfl | h
        · exact List.not_mem_nil
        · exact ih h
      · rename_i hc
        obtain ⟨first, rest, hsplit⟩ : ∃ first rest, elements path = first :: rest :=
          List.exists_cons_of_ne_nil (List.splitOn_ne_nil '/' path)
        rw [← elements, hsplit, List.modifyHead_cons] at h
        rcases List.mem_cons.mp h with rfl | h
        · intro hslash
          rcases List.mem_cons.mp hslash with rfl | hslash
          · exact hc (beq_self_eq_true '/')
          · exact ih (hsplit ▸ List.mem_cons_self) hslash
        · exact ih (hsplit ▸ List.mem_cons_of_mem _ h)

/-- The names on the way of a path are proper. -/
theorem proper_of_mem {path : List Char} {name : Name}
    (h : name ∈ (resolve (elements path)).names) : Proper name :=
  proper_of_resolve (fun _ he => noSlash_of_mem_elements he) name h

/-- What is joined can be taken apart. -/
theorem join_inj {names names' : List Name} (hne : names ≠ []) (hne' : names' ≠ [])
    (h : ∀ n ∈ names, '/' ∉ n) (h' : ∀ n ∈ names', '/' ∉ n) (heq : join names = join names') :
    names = names' := by
  rw [← List.splitOn_intercalate '/' h hne, ← List.splitOn_intercalate '/' h' hne']
  exact congrArg (List.splitOn '/') heq

theorem dotDot_noSlash : '/' ∉ dotDot := by decide

/-- **When a relative path is cleaned to given names**: its place is theirs. -/
theorem clean_eq_join_iff {path : List Char} (hrelative : path.head? ≠ some '/')
    {names : List Name} (hne : names ≠ []) (hnames : ∀ n ∈ names, '/' ∉ n)
    (hdot : names ≠ [dot]) (hdown : names.head? ≠ some dotDot) :
    clean path = join names ↔ resolve (elements path) = ⟨0, names.reverse⟩ := by
  have hplace : ∀ n ∈ (resolve (elements path)).names, '/' ∉ n :=
    fun n hn => (proper_of_mem hn).noSlash
  simp only [clean, if_neg hrelative]
  generalize resolve (elements path) = p at hplace ⊢
  constructor
  · intro h
    split at h
    · -- a path to here is written as a dot
      have hhere : join [dot] = join names := h
      exact absurd (join_inj (List.cons_ne_nil _ _) hne (by decide) hnames hhere).symm hdot
    · rename_i hhere
      have hwritten : List.replicate p.ups dotDot ++ p.names.reverse ≠ [] := by
        intro hnil
        obtain ⟨hups, hnone⟩ := List.append_eq_nil_iff.mp hnil
        apply hhere
        obtain ⟨ups, ns⟩ := p
        have hups' : ups = 0 := by simpa using hups
        have hns : ns = [] := by simpa using hnone
        rw [hups', hns]
        rfl
      have hslash : ∀ n ∈ List.replicate p.ups dotDot ++ p.names.reverse, '/' ∉ n := by
        intro n hn
        rcases List.mem_append.mp hn with hn | hn
        · rw [List.eq_of_mem_replicate hn]
          exact dotDot_noSlash
        · exact hplace n (List.mem_reverse.mp hn)
      have heq := join_inj hwritten hne hslash hnames h
      obtain ⟨ups, ns⟩ := p
      cases ups with
      | zero =>
          rw [← heq]
          simp
      | succ ups =>
          apply absurd _ hdown
          rw [← heq, List.replicate_succ]
          rfl
  · rintro rfl
    have hhere : (⟨0, names.reverse⟩ : Place Name) ≠ .here := by
      intro h
      exact hne (List.reverse_eq_nil_iff.mp (congrArg Place.names h))
    rw [if_neg hhere]
    simp

/-! ## Joining paths

`path.join` of the script's platform: a trailing slash stays. -/

def normalize (path : List Char) : List Char :=
  if path = [] then dot
  else
    let p := resolve (elements path)
    let written :=
      if path.head? = some '/' then join p.names.reverse
      else join (List.replicate p.ups dotDot ++ p.names.reverse)
    let trailing := if path.getLast? = some '/' then ['/'] else []
    if written = [] then (if path.head? = some '/' then ['/'] else dot ++ trailing)
    else (if path.head? = some '/' then ['/'] else []) ++ written ++ trailing

def joinPaths (paths : List (List Char)) : List Char :=
  let parts := paths.filter fun path => path ≠ []
  if parts = [] then dot else normalize (join parts)

end LexicalPath
