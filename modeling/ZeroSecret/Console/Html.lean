import ZeroSecret.Base.Escaping
import ZeroSecret.Base.Script

/-!
# Pages

`apps/console-web/src/html.ts`. A page is a template's literals with values
between them; a value is escaped unless it is marked as raw. What is written is
a sequence of pieces (`html_eq_pieces`), and of these only the literals and the
raw fragments bring markup.
-/

namespace ZeroSecret.Console

/-! ## `escapeHtml` -/

def escapes : List (UInt16 × CodeUnits) :=
  [(38, CodeUnits.ofChars ['&', 'a', 'm', 'p', ';']),
    (60, CodeUnits.ofChars ['&', 'l', 't', ';']),
    (62, CodeUnits.ofChars ['&', 'g', 't', ';']),
    (34, CodeUnits.ofChars ['&', 'q', 'u', 'o', 't', ';']),
    (39, CodeUnits.ofChars ['&', '#', '3', '9', ';'])]

/-- The class `[&<>"']`. -/
def sensitive : CodeUnits := [38, 60, 62, 34, 39]

def escapeHtml (value : CodeUnits) : CodeUnits :=
  value.flatMap fun ch => if ch ∈ sensitive then (escapes.lookup ch).getD [ch] else [ch]

/-- The five entities. -/
def htmlEntities : Entities UInt16 where
  mark := 38
  table := escapes
  marked := by
    intro e he
    refine ⟨e.2.tail, ?_⟩
    revert e
    decide
  covers := by decide
  prefixFree := by decide

theorem escapeHtml_eq (value : CodeUnits) : escapeHtml value = htmlEntities.escape value := by
  have hclass : sensitive = htmlEntities.table.map Prod.fst := rfl
  refine List.flatMap_congr fun ch _ => ?_
  rw [hclass]
  rcases htmlEntities.code_cases ch with ⟨w, hw, hcode⟩ | ⟨hfresh, hcode, -⟩
  · have hch : ch ∈ htmlEntities.table.map Prod.fst := List.mem_map.mpr ⟨(ch, w), hw, rfl⟩
    rw [if_pos hch]
    rfl
  · rw [if_neg hfresh, hcode]

/-- Reads the entities back. -/
def unescapeHtml (text : CodeUnits) : CodeUnits := htmlEntities.unescape text

theorem unescapeHtml_escapeHtml (value : CodeUnits) : unescapeHtml (escapeHtml value) = value := by
  rw [escapeHtml_eq]
  exact htmlEntities.unescape_escape value

theorem escapeHtml_injective : Function.Injective escapeHtml :=
  Function.LeftInverse.injective unescapeHtml_escapeHtml

/-! ## `html` -/

/-- An interpolated value; `other` is any further one, by what `String` makes of it. -/
inductive Value
  | string (value : CodeUnits)
  | null
  | undefined
  | other (text : CodeUnits)
  | rawHtml (value : CodeUnits)
  | array (elements : List Value)

def nullText : CodeUnits := CodeUnits.ofChars ['n', 'u', 'l', 'l']

def undefinedText : CodeUnits :=
  CodeUnits.ofChars ['u', 'n', 'd', 'e', 'f', 'i', 'n', 'e', 'd']

/-- `String` of an object without a `toString` of its own. -/
def objectText : CodeUnits :=
  CodeUnits.ofChars
    ['[', 'o', 'b', 'j', 'e', 'c', 't', ' ', 'O', 'b', 'j', 'e', 'c', 't', ']']

mutual

/-- `String(v)`; an array is its elements joined with commas. -/
def stringOf : Value → CodeUnits
  | .string value => value
  | .null => nullText
  | .undefined => undefinedText
  | .other text => text
  | .rawHtml _ => objectText
  | .array elements => List.intercalate [44] (joined elements)

/-- In a join `null` and `undefined` are empty. -/
def joined : List Value → List CodeUnits
  | [] => []
  | .null :: rest => [] :: joined rest
  | .undefined :: rest => [] :: joined rest
  | v :: rest => stringOf v :: joined rest

end

/-- `v instanceof RawHtml ? v.value : escapeHtml(String(v))` -/
def element : Value → CodeUnits
  | .rawHtml value => value
  | v => escapeHtml (stringOf v)

def interpolated : Value → CodeUnits
  | .rawHtml value => value
  | .array elements => (elements.map element).flatten
  | v => escapeHtml (stringOf v)

/-- `strings[i] ?? ""`; a literal with an invalid escape is `undefined`. -/
def cooked (strings : List (Option CodeUnits)) (i : Nat) : CodeUnits :=
  (strings.getD i none).getD []

/-- The loop of `html`, over the values still to write. -/
def htmlLoop (strings : List (Option CodeUnits)) : List Value → Nat → CodeUnits → CodeUnits
  | [], _, out => out
  | value :: rest, i, out =>
      htmlLoop strings rest (i + 1) (out ++ interpolated value ++ cooked strings (i + 1))

def html (strings : List (Option CodeUnits)) (values : List Value) : CodeUnits :=
  htmlLoop strings values 0 (cooked strings 0)

/-! ## Pieces -/

/-- What a page is made of. -/
inductive Piece
  | literal (s : CodeUnits)
  | fragment (value : CodeUnits)
  | text (s : CodeUnits)

def Piece.units : Piece → CodeUnits
  | literal s => s
  | fragment value => value
  | text s => escapeHtml s

/-- The piece without what a value brought. -/
def Piece.blank : Piece → Piece
  | text _ => text []
  | p => p

def elementPiece : Value → Piece
  | .rawHtml value => .fragment value
  | v => .text (stringOf v)

/-- The elements of an array, or the value alone. -/
def Value.leaves : Value → List Value
  | array elements => elements
  | v => [v]

def valuePieces (value : Value) : List Piece := value.leaves.map elementPiece

def laterPieces (strings : List (Option CodeUnits)) : List Value → Nat → List Piece
  | [], _ => []
  | value :: rest, i =>
      valuePieces value ++ .literal (cooked strings (i + 1)) :: laterPieces strings rest (i + 1)

def pieces (strings : List (Option CodeUnits)) (values : List Value) : List Piece :=
  .literal (cooked strings 0) :: laterPieces strings values 0

theorem element_units (v : Value) : (elementPiece v).units = element v := by
  cases v <;> rfl

theorem interpolated_pieces (value : Value) :
    (valuePieces value).flatMap Piece.units = interpolated value := by
  cases value with
  | array elements =>
      rw [valuePieces, Value.leaves, interpolated, List.flatMap_map, List.flatMap_def]
      exact congrArg List.flatten (List.map_congr_left fun v _ => element_units v)
  | _ => exact List.flatMap_singleton ..

theorem htmlLoop_eq (strings : List (Option CodeUnits)) (values : List Value) (i : Nat)
    (out : CodeUnits) :
    htmlLoop strings values i out = out ++ (laterPieces strings values i).flatMap Piece.units := by
  induction values generalizing i out with
  | nil => simp [htmlLoop, laterPieces]
  | cons value rest ih =>
      rw [htmlLoop, ih, laterPieces, List.flatMap_append, List.flatMap_cons, interpolated_pieces,
        List.append_assoc, List.append_assoc]
      rfl

theorem html_eq_pieces (strings : List (Option CodeUnits)) (values : List Value) :
    html strings values = (pieces strings values).flatMap Piece.units := by
  rw [html, htmlLoop_eq, pieces, List.flatMap_cons]
  rfl

/-! ## Markup -/

def isMarkup (ch : UInt16) : Bool := ch ∈ [60, 62, 34, 39]

/-- The markup characters of a text, in order. -/
def markup (s : CodeUnits) : CodeUnits := s.filter isMarkup

theorem markup_escapeHtml (value : CodeUnits) : markup (escapeHtml value) = [] := by
  rw [markup, List.filter_eq_nil_iff, escapeHtml_eq]
  intro ch hch hmarkup
  have hout : ∀ c ∈ [60, 62, 34, 39], c ∈ htmlEntities.table.map Prod.fst ∧
      ∀ e ∈ htmlEntities.table, c ∉ e.2 := by
    decide
  obtain ⟨hsensitive, habsent⟩ := hout ch (of_decide_eq_true hmarkup)
  exact htmlEntities.not_mem_escape hsensitive habsent value hch

theorem markup_blank (p : Piece) : markup p.blank.units = markup p.units := by
  cases p with
  | text s => exact (markup_escapeHtml []).trans (markup_escapeHtml s).symm
  | _ => rfl

theorem markup_flatMap (ps : List Piece) :
    markup (ps.flatMap Piece.units) = ps.flatMap fun p => markup p.units :=
  List.filter_flatMap

/-- The literals and the fragments decide the markup. -/
theorem markup_eq_of_blank {ps qs : List Piece} (h : ps.map Piece.blank = qs.map Piece.blank) :
    markup (ps.flatMap Piece.units) = markup (qs.flatMap Piece.units) := by
  have hblank : ∀ l : List Piece,
      (l.map Piece.blank).flatMap (fun p => markup p.units) = l.flatMap fun p => markup p.units := by
    intro l
    rw [List.flatMap_map]
    exact List.flatMap_congr fun p _ => markup_blank p
  rw [markup_flatMap, markup_flatMap, ← hblank, h, hblank]

def Piece.Written : Piece → Bool
  | text _ => false
  | _ => true

theorem markup_eq_written (ps : List Piece) :
    markup (ps.flatMap Piece.units) = (ps.filter Piece.Written).flatMap fun p => markup p.units := by
  rw [markup_flatMap]
  induction ps with
  | nil => rfl
  | cons p ps ih =>
      cases p with
      | text s =>
          rw [List.flatMap_cons, ih]
          show markup (escapeHtml s) ++ _ = _
          rw [markup_escapeHtml]
          rfl
      | literal s => exact congrArg (markup s ++ ·) ih
      | fragment value => exact congrArg (markup value ++ ·) ih

/-! ## Values of one shape -/

def Value.IsText : Value → Prop
  | rawHtml _ => False
  | array _ => False
  | _ => True

/-- Arrays of one length with the same fragments in the same places; any two other values. -/
inductive SameShape : Value → Value → Prop
  | rawHtml (value : CodeUnits) : SameShape (.rawHtml value) (.rawHtml value)
  | array {vs ws : List Value} (h : List.Forall₂ SameShape vs ws) :
      SameShape (.array vs) (.array ws)
  | text {v w : Value} (hv : v.IsText) (hw : w.IsText) : SameShape v w

theorem leaves_of_isText {v : Value} (h : v.IsText) : v.leaves = [v] := by
  cases v with
  | array elements => exact h.elim
  | _ => rfl

theorem elementPiece_of_isText {v : Value} (h : v.IsText) : elementPiece v = .text (stringOf v) := by
  cases v with
  | rawHtml value => exact h.elim
  | _ => rfl

theorem leaves_sameShape {v w : Value} (h : SameShape v w) :
    List.Forall₂ SameShape v.leaves w.leaves := by
  cases h with
  | rawHtml value => exact .cons (.rawHtml value) .nil
  | array h => exact h
  | text hv hw =>
      rw [leaves_of_isText hv, leaves_of_isText hw]
      exact .cons (.text hv hw) .nil

theorem blank_elementPiece {v w : Value} (h : SameShape v w) :
    (elementPiece v).blank = (elementPiece w).blank := by
  cases h with
  | rawHtml value => rfl
  | array h => rfl
  | text hv hw =>
      rw [elementPiece_of_isText hv, elementPiece_of_isText hw]
      rfl

theorem blank_elements {vs ws : List Value} (h : List.Forall₂ SameShape vs ws) :
    (vs.map elementPiece).map Piece.blank = (ws.map elementPiece).map Piece.blank := by
  induction h with
  | nil => rfl
  | cons hvw _ ih =>
      rw [List.map_cons, List.map_cons, List.map_cons, List.map_cons, ih, blank_elementPiece hvw]

theorem blank_valuePieces {v w : Value} (h : SameShape v w) :
    (valuePieces v).map Piece.blank = (valuePieces w).map Piece.blank :=
  blank_elements (leaves_sameShape h)

theorem blank_laterPieces (strings : List (Option CodeUnits)) {values values' : List Value}
    (h : List.Forall₂ SameShape values values') (i : Nat) :
    (laterPieces strings values i).map Piece.blank =
      (laterPieces strings values' i).map Piece.blank := by
  induction h generalizing i with
  | nil => rfl
  | cons hvw _ ih =>
      rw [laterPieces, laterPieces, List.map_append, List.map_append, List.map_cons, List.map_cons,
        blank_valuePieces hvw, ih]

theorem blank_pieces (strings : List (Option CodeUnits)) {values values' : List Value}
    (h : List.Forall₂ SameShape values values') :
    (pieces strings values).map Piece.blank = (pieces strings values').map Piece.blank := by
  rw [pieces, pieces, List.map_cons, List.map_cons, blank_laterPieces strings h]

/-! ## Where a piece comes from -/

/-- A literal of the template, a fragment among the values, a text one of them brings. -/
def Piece.From (strings : List (Option CodeUnits)) (values : List Value) : Piece → Prop
  | literal s => ∃ i, s = cooked strings i
  | fragment value => ∃ v ∈ values, .rawHtml value ∈ v.leaves
  | text s => ∃ v ∈ values, ∃ w ∈ v.leaves, s = stringOf w

theorem elementPiece_from (strings : List (Option CodeUnits)) {values : List Value} {v w : Value}
    (hv : v ∈ values) (hw : w ∈ v.leaves) : (elementPiece w).From strings values := by
  cases w with
  | rawHtml value => exact ⟨v, hv, hw⟩
  | _ => exact ⟨v, hv, _, hw, rfl⟩

theorem Piece.From.cons {strings : List (Option CodeUnits)} {values : List Value} {p : Piece}
    (h : p.From strings values) (value : Value) : p.From strings (value :: values) := by
  cases p with
  | literal s => exact h
  | fragment fragment =>
      obtain ⟨v, hv, hleaf⟩ := h
      exact ⟨v, List.mem_cons_of_mem value hv, hleaf⟩
  | text s =>
      obtain ⟨v, hv, hleaf⟩ := h
      exact ⟨v, List.mem_cons_of_mem value hv, hleaf⟩

theorem laterPieces_from (strings : List (Option CodeUnits)) {values : List Value} {i : Nat}
    {p : Piece} (hp : p ∈ laterPieces strings values i) : p.From strings values := by
  induction values generalizing i with
  | nil => cases hp
  | cons value rest ih =>
      rw [laterPieces, List.mem_append, List.mem_cons] at hp
      rcases hp with hp | rfl | hp
      · obtain ⟨w, hw, rfl⟩ := List.mem_map.mp hp
        exact elementPiece_from strings (List.mem_cons_self ..) hw
      · exact ⟨i + 1, rfl⟩
      · exact (ih hp).cons value

theorem pieces_from (strings : List (Option CodeUnits)) (values : List Value) :
    ∀ p ∈ pieces strings values, p.From strings values := by
  intro p hp
  rcases List.mem_cons.mp hp with rfl | hp
  · exact ⟨0, rfl⟩
  · exact laterPieces_from strings hp

/-- **Values bring no markup.** Two lists of values of one shape give the same markup
characters; a page is made of pieces, of which the literals and the raw fragments alone
bring markup and the escaped texts bring `&` only as the start of an entity; and an
escaped text is read back. -/
theorem html_markup :
    (∀ strings values values', List.Forall₂ SameShape values values' →
      markup (html strings values) = markup (html strings values')) ∧
    (∀ strings values,
      html strings values = (pieces strings values).flatMap Piece.units ∧
      (∀ p ∈ pieces strings values, p.From strings values) ∧
      markup (html strings values) =
        ((pieces strings values).filter Piece.Written).flatMap fun p => markup p.units) ∧
    (∀ value, markup (escapeHtml value) = [] ∧
      ∀ before after, escapeHtml value = before ++ 38 :: after →
        ∃ e ∈ escapes, e.2 <+: 38 :: after) ∧
    (∀ value, unescapeHtml (escapeHtml value) = value) ∧
    Function.Injective escapeHtml := by
  refine ⟨?_, ?_, ?_, unescapeHtml_escapeHtml, escapeHtml_injective⟩
  · intro strings values values' h
    rw [html_eq_pieces, html_eq_pieces]
    exact markup_eq_of_blank (blank_pieces strings h)
  · intro strings values
    refine ⟨html_eq_pieces strings values, pieces_from strings values, ?_⟩
    rw [html_eq_pieces]
    exact markup_eq_written (pieces strings values)
  · intro value
    refine ⟨markup_escapeHtml value, ?_⟩
    intro before after h
    rw [escapeHtml_eq] at h
    exact htmlEntities.entity_of_mark h

/-- The fragment `<i>` among values. -/
def italic : Value := .rawHtml (CodeUnits.ofChars ['<', 'i', '>'])

/-- A value that tries to bring a tag and one that tries to end an attribute. -/
theorem html_markup_hostile :
    markup (html [some [60], some [62], none]
      [.string (CodeUnits.ofChars ['<', 'b', '>']), .array [italic, .string [34]]]) =
    markup (html [some [60], some [62], none] [.null, .array [italic, .undefined]]) := by
  have helements : List.Forall₂ SameShape [italic, .string [34]] [italic, .undefined] :=
    .cons (.rawHtml _) (.cons (.text trivial trivial) .nil)
  exact html_markup.1 _ _ _ (.cons (.text trivial trivial) (.cons (.array helements) .nil))

end ZeroSecret.Console
