import ZeroSecret.Console.Conduct

/-!
# Static files

`serveStatic` refuses a path with two dots in a row, and joins what is left to
the directory of the public files. Whatever is read is that directory followed
by the names of the path, in their order.
-/

namespace LexicalPath

/-! ## Paths without dots -/

/-- The element names a step down. -/
def steps (element : Name) : Bool := element ≠ [] ∧ element ≠ dot

/-- Without two dots a path only goes down. -/
theorem resolve_of_noDotDot {elements : List Name} (h : dotDot ∉ elements) :
    resolve elements = ⟨0, (elements.filter steps).reverse⟩ := by
  have hwalk : ∀ p : Place Name, elements.foldl walk p =
      ⟨p.ups, (elements.filter steps).reverse ++ p.names⟩ := by
    induction elements with
    | nil => exact fun p => rfl
    | cons element elements ih =>
        intro p
        obtain ⟨hne, hrest⟩ := not_or.mp (mt List.mem_cons.mpr h)
        rw [List.foldl_cons, ih hrest, List.filter_cons]
        unfold walk
        by_cases hstay : element = [] ∨ element = dot
        · have hno : ¬ steps element = true := by
            rw [steps, decide_eq_true_eq]
            exact fun hstep => hstay.elim hstep.1 hstep.2
          rw [if_pos hstay, if_neg hno]
        · have hyes : steps element = true := by
            rw [steps, decide_eq_true_eq]
            exact not_or.mp hstay
          rw [if_neg hstay, if_neg (Ne.symm hne), if_pos hyes, Place.down, List.reverse_cons,
            List.append_assoc]
          rfl
  have h := hwalk .here
  rw [resolve, h, Place.here, List.append_nil]

theorem resolve_of_proper {names : List Name} (h : ∀ n ∈ names, Proper n) :
    resolve names = ⟨0, names.reverse⟩ := by
  have hsteps : names.filter steps = names := by
    rw [List.filter_eq_self]
    intro n hn
    exact decide_eq_true ⟨(h n hn).ne_nil, (h n hn).ne_dot⟩
  rw [resolve_of_noDotDot fun hmem => (h _ hmem).ne_dotDot rfl, hsteps]

theorem proper_of_steps {path : List Char} (hdots : dotDot ∉ elements path) {name : Name}
    (h : name ∈ (elements path).filter steps) : Proper name := by
  obtain ⟨hmem, hstep⟩ := List.mem_filter.mp h
  rw [steps, decide_eq_true_eq] at hstep
  refine ⟨hstep.1, hstep.2, ?_, noSlash_of_mem_elements hmem⟩
  rintro rfl
  exact hdots hmem

/-- An absolute path of proper names. -/
def rooted (names : List Name) : List Char := '/' :: join names

theorem elements_rooted {names : List Name} (hne : names ≠ []) (h : ∀ n ∈ names, Proper n) :
    elements (rooted names) = [] :: names := by
  rw [rooted, elements, List.splitOn_cons_eq_if_modifyHead, if_pos (beq_self_eq_true '/'), join,
    List.splitOn_intercalate '/' (fun n hn => (h n hn).noSlash) hne]

theorem join_ne_nil {names : List Name} (hne : names ≠ []) (h : ∀ n ∈ names, Proper n) :
    join names ≠ [] := by
  cases names with
  | nil => exact absurd rfl hne
  | cons n names =>
      obtain ⟨c, rest, hn⟩ := List.exists_cons_of_ne_nil (h n List.mem_cons_self).ne_nil
      cases names with
      | nil =>
          rw [join, List.intercalate_singleton, hn]
          exact List.cons_ne_nil _ _
      | cons m names =>
          rw [join, List.intercalate_cons_cons, hn]
          exact List.cons_ne_nil _ _

/-- The slash that a path may end with. -/
def trailing (path : List Char) : List Char := if path.getLast? = some '/' then ['/'] else []

/-- An absolute path whose place is given by its names. -/
theorem normalize_of_resolve {path : List Char} {names : List Name}
    (habsolute : path.head? = some '/') (hne : names ≠ []) (h : ∀ n ∈ names, Proper n)
    (hresolve : resolve (elements path) = ⟨0, names.reverse⟩) :
    normalize path = rooted names ++ trailing path := by
  have hpath : path ≠ [] := by
    rintro rfl
    cases habsolute
  unfold normalize
  dsimp only
  rw [if_neg hpath, if_pos habsolute, if_pos habsolute, hresolve]
  dsimp only
  rw [List.reverse_reverse, if_neg (join_ne_nil hne h), if_pos habsolute]
  rfl

/-- **A path without two dots, joined to a rooted one**, goes on from there. -/
theorem joinPaths_rooted {dir : List Name} (hne : dir ≠ []) (hdir : ∀ n ∈ dir, Proper n)
    {rel : List Char} (hdots : dotDot ∉ elements rel) :
    ∃ slash, (slash = [] ∨ slash = ['/']) ∧ joinPaths [rooted dir, rel] =
      rooted (dir ++ (elements rel).filter steps) ++ slash := by
  have hslash : ∀ path : List Char, trailing path = [] ∨ trailing path = ['/'] := by
    intro path
    unfold trailing
    split
    · exact Or.inr rfl
    · exact Or.inl rfl
  have hresolved : resolve (elements (rooted dir)) = ⟨0, dir.reverse⟩ := by
    rw [elements_rooted hne hdir]
    exact resolve_of_proper hdir
  by_cases hrel : rel = []
  · refine ⟨trailing (rooted dir), hslash _, ?_⟩
    subst hrel
    have hparts : joinPaths [rooted dir, []] = normalize (rooted dir) := by
      simp [joinPaths, rooted, join]
    have hnone : (elements []).filter steps = [] := rfl
    rw [hparts, hnone, List.append_nil, normalize_of_resolve rfl hne hdir hresolved]
  · refine ⟨trailing (rooted dir ++ '/' :: rel), hslash _, ?_⟩
    have hparts : joinPaths [rooted dir, rel] = normalize (rooted dir ++ '/' :: rel) := by
      have hkept : [rooted dir, rel].filter (fun path => path ≠ []) = [rooted dir, rel] := by
        rw [List.filter_eq_self]
        intro path hpath
        rcases List.mem_cons.mp hpath with rfl | hpath
        · exact decide_eq_true (List.cons_ne_nil _ _)
        · rw [List.mem_singleton.mp hpath]
          exact decide_eq_true hrel
      unfold joinPaths
      dsimp only
      rw [hkept]
      have hjoin : join [rooted dir, rel] = rooted dir ++ '/' :: rel := by
        rw [join, List.intercalate_cons_cons, List.intercalate_singleton, List.append_assoc]
        rfl
      rw [hjoin]
      exact if_neg (List.cons_ne_nil _ _)
    have hproper : ∀ n ∈ dir ++ (elements rel).filter steps, Proper n := by
      intro n hn
      rcases List.mem_append.mp hn with hn | hn
      · exact hdir n hn
      · exact proper_of_steps hdots hn
    rw [hparts]
    apply normalize_of_resolve rfl (List.append_ne_nil_of_left_ne_nil hne _) hproper
    -- the elements of the two paths one after the other
    have helements : elements (rooted dir ++ '/' :: rel) = elements (rooted dir) ++ elements rel :=
      List.splitOn_append_cons_self ..
    rw [helements, resolve_append, hresolved, resolve_of_noDotDot hdots, Place.below,
      List.reverse_append]
    dsimp only
    rw [Nat.zero_sub]
    rfl

end LexicalPath

namespace ZeroSecret.Console.Server

open Interleave LexicalPath

theorem head_of_elements {path : List Char} {first : Name} {rest : List Name} {c : Char}
    (h : elements path = first :: rest) (hc : first.head? = some c) : path.head? = some c := by
  cases path with
  | nil =>
      obtain rfl : [] = first := (List.cons.inj h).1
      cases hc
  | cons d path =>
      rw [elements, List.splitOn_cons_eq_if_modifyHead] at h
      split at h
      · obtain rfl : [] = first := (List.cons.inj h).1
        cases hc
      · obtain ⟨f, r, hsplit⟩ := List.exists_cons_of_ne_nil (List.splitOn_ne_nil '/' path)
        rw [hsplit, List.modifyHead_cons] at h
        rw [← (List.cons.inj h).1] at hc
        exact hc

/-- What an element has two dots in, the path has. -/
theorem includesDots_of_element {path : List Char} {name : Name} (hmem : name ∈ elements path)
    (h : includesDots name = true) : includesDots path = true := by
  induction path generalizing name with
  | nil =>
      rw [List.mem_singleton.mp hmem] at h
      cases h
  | cons c path ih =>
      obtain ⟨first, rest, hsplit⟩ := List.exists_cons_of_ne_nil (List.splitOn_ne_nil '/' path)
      have helements : elements path = first :: rest := hsplit
      rw [elements, List.splitOn_cons_eq_if_modifyHead] at hmem
      rw [includesDots, Bool.or_eq_true]
      split at hmem
      · right
        rcases List.mem_cons.mp hmem with rfl | hmem
        · cases h
        · exact ih hmem h
      · rw [hsplit, List.modifyHead_cons] at hmem
        rcases List.mem_cons.mp hmem with rfl | hmem
        · rw [includesDots, Bool.or_eq_true] at h
          rcases h with h | h
          · left
            rw [Bool.and_eq_true, decide_eq_true_eq, decide_eq_true_eq] at h ⊢
            exact ⟨h.1, head_of_elements helements h.2⟩
          · right
            exact ih (helements ▸ List.mem_cons_self) h
        · right
          exact ih (helements ▸ List.mem_cons_of_mem _ hmem) h

theorem dotDot_not_mem {rel : List Char} (h : includesDots rel = false) : dotDot ∉ elements rel := by
  intro hmem
  rw [includesDots_of_element hmem (by decide)] at h
  cases h

variable {Caller : Type} [DecidableEq Caller] {platform : Platform} {config : ServerConfig}
  {calls : Caller → Call} {h : List (Executed Caller ServerOp.Resp)}
  {c : Config (serverWorld Caller) (Option Response)}

/-- **No file outside the public directory is read.** What any run reads is a path that
begins with the names of that directory and goes on with those of the requested path. -/
theorem static_confined (hc : History (serverWorld Caller) (Serves platform config calls) h c)
    {dir : List Name} (hne : dir ≠ []) (hdir : ∀ n ∈ dir, Proper n)
    (hpublic : config.publicDir = rooted dir) {e : Executed Caller ServerOp.Resp} (he : e ∈ h)
    {path : List Char} (hread : e.op = .readFile path) :
    ∃ request slash, calls e.caller = .request request ∧ request.method = "GET" ∧
      request.pathname.toList = staticPrefix ++ relOf request.pathname ∧
      (slash = [] ∨ slash = ['/']) ∧
      (∀ n ∈ (elements (relOf request.pathname)).filter steps, Proper n) ∧
      path = rooted (dir ++ (elements (relOf request.pathname)).filter steps) ++ slash := by
  obtain ⟨before, after, hh⟩ := List.append_of_mem he
  have hmay := may_of_history hc hh
  cases hcall : calls e.caller with
  | sweep =>
      simp only [hcall, May] at hmay
      rcases hmay with hmay | ⟨now, hmay⟩
      · rw [hread] at hmay
        cases hmay
      · rw [hread] at hmay
        cases hmay
  | request request =>
      simp only [hcall, May, hread] at hmay
      generalize hop : ServerOp.readFile path = op at hmay
      cases hmay with
      | readFile hmethod hprefix hdots hrelative =>
          obtain rfl := ServerOp.readFile.inj hop
          have hnodots := dotDot_not_mem hdots
          obtain ⟨slash, hslash, hjoined⟩ := joinPaths_rooted hne hdir hnodots
          refine ⟨request, slash, rfl, hmethod, ?_, hslash,
            fun n hn => proper_of_steps hnodots hn, ?_⟩
          · obtain ⟨tail, htail⟩ := List.isPrefixOf_iff_prefix.mp hprefix
            rw [relOf, ← htail, List.drop_left]
          · rw [hpublic]
            exact hjoined
      | now | get | create | logout | refused | identityProvider | accessBroker | adminApi =>
          cases hop

def readPath (act : ServerAct) : Option (List Char) :=
  match act.op with
  | .readFile path => some path
  | _ => none

theorem readPath_eq_some {act : ServerAct} {path : List Char} (h : readPath act = some path) :
    act.op = .readFile path := by
  obtain ⟨op, answer⟩ := act
  cases op with
  | readFile path' => exact congrArg ServerOp.readFile (Option.some.inj h)
  | now | create | get | destroy | sweepExpired | fetch => cases h

theorem proper_public : Proper "public".toList := by
  constructor <;> decide +kernel

/-- The script of the pages is read from the public directory. -/
theorem static_confined_script : ∃ e ∈ sampleActs 4, ∃ request slash,
    e.op = .readFile "/public/webauthn.js".toList ∧ sampleCalls e.caller = .request request ∧
      "/public/webauthn.js".toList =
        rooted (["public".toList] ++ (elements (relOf request.pathname)).filter steps) ++ slash := by
  obtain ⟨c, hc, -⟩ := sample_history 4
  have hreads : "/public/webauthn.js".toList ∈
      (sampleActs 4).filterMap fun e => readPath e.toAct := by decide +kernel
  obtain ⟨e, he, hread⟩ := List.mem_filterMap.mp hreads
  have hop := readPath_eq_some hread
  have hpublic : sampleConfig.publicDir = rooted ["public".toList] := by decide +kernel
  have hproper : ∀ n ∈ ["public".toList], Proper n := by
    intro n hn
    rw [List.mem_singleton.mp hn]
    exact proper_public
  obtain ⟨request, slash, hcall, -, -, -, -, hpath⟩ :=
    static_confined hc (List.cons_ne_nil _ _) hproper hpublic he hop
  exact ⟨e, he, request, slash, hop, hcall, hpath⟩

end ZeroSecret.Console.Server
