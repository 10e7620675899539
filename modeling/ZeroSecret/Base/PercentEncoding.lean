import ZeroSecret.Base.Json
import ZeroSecret.Base.Script

/-!
# Percent encoding

A text within a path: the octets of its UTF-8, of which all but a few letters
are written as a percent sign and two digits. A text that is not well formed
UTF-16 has no octets.
-/

namespace PercentEncoding

/-! ## Octets -/

/-- `A-Z a-z 0-9 - _ . ! ~ * ' ( )` -/
def unreserved (b : UInt8) : Bool :=
  let n := b.toNat
  (65 ≤ n && n ≤ 90) || (97 ≤ n && n ≤ 122) || (48 ≤ n && n ≤ 57) || n == 45 || n == 95 ||
    n == 46 || n == 33 || n == 126 || n == 42 || n == 39 || n == 40 || n == 41

def hexDigit (n : Nat) : UInt8 := UInt8.ofNat (if n < 10 then 48 + n else 55 + n)

def hexValue (b : UInt8) : Option Nat :=
  let n := b.toNat
  if 48 ≤ n ∧ n ≤ 57 then some (n - 48)
  else if 65 ≤ n ∧ n ≤ 70 then some (n - 55)
  else if 97 ≤ n ∧ n ≤ 102 then some (n - 87)
  else none

def escapeOctet (b : UInt8) : Bytes :=
  if unreserved b then [b] else [37, hexDigit (b.toNat / 16), hexDigit (b.toNat % 16)]

def encode (bytes : Bytes) : Bytes := bytes.flatMap escapeOctet

def decode : Bytes → Option Bytes
  | [] => some []
  | b :: rest =>
      if b = 37 then
        match rest with
        | hi :: lo :: rest =>
            match hexValue hi, hexValue lo with
            | some hi, some lo => (decode rest).map (UInt8.ofNat (hi * 16 + lo) :: ·)
            | _, _ => none
        | _ => none
      else (decode rest).map (b :: ·)

theorem hexValue_hexDigit : ∀ n < 16, hexValue (hexDigit n) = some n := by
  decide

theorem ne_percent_of_unreserved {b : UInt8} (h : unreserved b = true) : b ≠ 37 := by
  rintro rfl
  revert h
  decide

theorem decode_cons {b : UInt8} (h : b ≠ 37) (rest : Bytes) :
    decode (b :: rest) = (decode rest).map (b :: ·) := by
  rw [decode.eq_def]
  exact if_neg h

theorem decode_escapeOctet (b : UInt8) (rest : Bytes) :
    decode (escapeOctet b ++ rest) = (decode rest).map (b :: ·) := by
  unfold escapeOctet
  split
  · rename_i hplain
    exact decode_cons (ne_percent_of_unreserved hplain) rest
  · have hb := b.toNat_lt
    have hvalue : UInt8.ofNat (b.toNat / 16 * 16 + b.toNat % 16) = b := by
      rw [Nat.div_add_mod', UInt8.ofNat_toNat]
    change decode (37 :: hexDigit (b.toNat / 16) :: hexDigit (b.toNat % 16) :: rest) = _
    rw [decode, if_pos rfl, hexValue_hexDigit _ (by omega), hexValue_hexDigit _ (by omega)]
    dsimp only
    rw [hvalue]

/-- What is encoded is decoded again. -/
theorem decode_encode (bytes : Bytes) : decode (encode bytes) = some bytes := by
  induction bytes with
  | nil => rfl
  | cons b bytes ih =>
      rw [encode, List.flatMap_cons, decode_escapeOctet]
      exact congrArg (Option.map (b :: ·)) ih

/-- What is written is a letter left as it is, or a percent sign. -/
theorem mem_encode {b : UInt8} {bytes : Bytes} (h : b ∈ encode bytes) :
    unreserved b = true ∨ b = 37 := by
  have hdigits : ∀ n < 16, unreserved (hexDigit n) = true := by decide
  obtain ⟨a, -, h⟩ := List.mem_flatMap.mp h
  unfold escapeOctet at h
  split at h
  · rename_i hplain
    rw [List.mem_singleton.mp h]
    exact Or.inl hplain
  · have ha := a.toNat_lt
    rcases List.mem_cons.mp h with h | h
    · exact Or.inr h
    left
    rcases List.mem_cons.mp h with h | h
    · rw [h]
      exact hdigits _ (by omega)
    · rw [List.mem_singleton.mp h]
      exact hdigits _ (by omega)

/-! ## Texts -/

def isHigh (u : UInt16) : Bool := 0xD800 ≤ u.toNat && u.toNat ≤ 0xDBFF

def isLow (u : UInt16) : Bool := 0xDC00 ≤ u.toNat && u.toNat ≤ 0xDFFF

/-- The characters of a text; a surrogate that stands alone is none. -/
def toChars : CodeUnits → Option (List Char)
  | [] => some []
  | u :: rest =>
      if isLow u then none
      else if isHigh u then
        match rest with
        | v :: rest =>
            if isLow v then
              (toChars rest).map
                (Char.ofNat (0x10000 + (u.toNat - 0xD800) * 0x400 + (v.toNat - 0xDC00)) :: ·)
            else none
        | [] => none
      else (toChars rest).map (Char.ofNat u.toNat :: ·)

def encodeURIComponent (text : CodeUnits) : Option CodeUnits :=
  (toChars text).map fun cs => (encode (Json.utf8 cs)).map fun b => UInt16.ofNat b.toNat

theorem toNat_unit {n : Nat} (h : n < 0x10000) : (UInt16.ofNat n).toNat = n :=
  UInt16.toNat_ofNat_of_lt' h

theorem toNat_ofNat {n : Nat} (h : n.isValidChar) : (Char.ofNat n).toNat = n := by
  rw [Char.ofNat, dif_pos h]
  rfl

/-- A text is the units of its characters. -/
theorem eq_flatMap_of_toChars {text : CodeUnits} {cs : List Char} (h : toChars text = some cs) :
    text = cs.flatMap CodeUnits.ofChar := by
  fun_induction toChars text generalizing cs with
  | case1 =>
      cases h
      rfl
  | case2 | case4 | case5 => cases h
  | case3 u hlow hhigh v rest hv ih =>
      obtain ⟨ds, hds, rfl⟩ := Option.map_eq_some_iff.mp h
      simp only [isHigh, isLow, Bool.and_eq_true, decide_eq_true_eq] at hhigh hv
      have hchar : (Char.ofNat (0x10000 + (u.toNat - 0xD800) * 0x400 + (v.toNat - 0xDC00))).toNat =
          0x10000 + (u.toNat - 0xD800) * 0x400 + (v.toNat - 0xDC00) :=
        toNat_ofNat (Or.inr ⟨by omega, by omega⟩)
      have hfirst : 0xD800 + (0x10000 + (u.toNat - 0xD800) * 0x400 + (v.toNat - 0xDC00) - 0x10000) /
          0x400 = u.toNat := by omega
      have hsecond : 0xDC00 + (0x10000 + (u.toNat - 0xD800) * 0x400 + (v.toNat - 0xDC00) - 0x10000) %
          0x400 = v.toNat := by omega
      rw [List.flatMap_cons, CodeUnits.ofChar, hchar, if_neg (by omega), hfirst, hsecond,
        UInt16.ofNat_toNat, UInt16.ofNat_toNat, ← ih hds]
      rfl
  | case6 u rest hlow hhigh ih =>
      obtain ⟨ds, hds, rfl⟩ := Option.map_eq_some_iff.mp h
      simp only [isHigh, isLow, Bool.and_eq_true, decide_eq_true_eq] at hlow hhigh
      have hu := u.toNat_lt
      have hchar : (Char.ofNat u.toNat).toNat = u.toNat := by
        apply toNat_ofNat
        by_cases hsmall : u.toNat < 0xD800
        · exact Or.inl hsmall
        · exact Or.inr ⟨by omega, by omega⟩
      rw [List.flatMap_cons, CodeUnits.ofChar, hchar, if_pos (by omega), UInt16.ofNat_toNat, ← ih hds]
      rfl

/-- The octets of a unit of seven bits. -/
def octets (text : CodeUnits) : Bytes := text.map fun u => UInt8.ofNat u.toNat

theorem unit_injective {b b' : UInt8} (h : UInt16.ofNat b.toNat = UInt16.ofNat b'.toNat) :
    b = b' := by
  have hb := b.toNat_lt
  have hb' := b'.toNat_lt
  have hunit := congrArg UInt16.toNat h
  rw [toNat_unit (by omega), toNat_unit (by omega)] at hunit
  exact UInt8.toNat_inj.mp hunit

theorem octets_units (bytes : Bytes) :
    octets (bytes.map fun b => UInt16.ofNat b.toNat) = bytes := by
  rw [octets, List.map_map]
  nth_rewrite 2 [← List.map_id bytes]
  apply List.map_congr_left
  intro b _
  have hb := b.toNat_lt
  have hunit : (UInt16.ofNat b.toNat).toNat = b.toNat := toNat_unit (by omega)
  rw [Function.comp_apply, hunit, UInt8.ofNat_toNat, id]

theorem encodeURIComponent_eq_some {text encoded : CodeUnits}
    (h : encodeURIComponent text = some encoded) :
    ∃ cs, toChars text = some cs ∧ encoded = (encode (Json.utf8 cs)).map fun b => UInt16.ofNat b.toNat := by
  obtain ⟨cs, hcs, rfl⟩ := Option.map_eq_some_iff.mp h
  exact ⟨cs, hcs, rfl⟩

/-- **A text in a path is read back.** -/
theorem decode_encodeURIComponent {text encoded : CodeUnits} {cs : List Char}
    (h : encodeURIComponent text = some encoded) (hcs : toChars text = some cs) :
    decode (octets encoded) = some (Json.utf8 cs) := by
  obtain ⟨ds, hds, rfl⟩ := encodeURIComponent_eq_some h
  rw [octets_units, decode_encode, Option.some.inj (hds.symm.trans hcs)]

/-- Nothing that ends a path or separates its parts: `/`, `?`, `#` and a backslash. -/
theorem not_mem_encodeURIComponent {text encoded : CodeUnits}
    (h : encodeURIComponent text = some encoded) :
    ∀ u ∈ ([47, 63, 35, 92] : CodeUnits), u ∉ encoded := by
  have hmarks : ([47, 63, 35, 92] : CodeUnits) =
      ([47, 63, 35, 92] : Bytes).map fun b => UInt16.ofNat b.toNat := by decide
  have hescaped : ∀ b ∈ ([47, 63, 35, 92] : Bytes), ¬ (unreserved b = true ∨ b = 37) := by decide
  obtain ⟨cs, -, rfl⟩ := encodeURIComponent_eq_some h
  rw [hmarks]
  intro u hmark hu
  obtain ⟨b, hb, rfl⟩ := List.mem_map.mp hmark
  obtain ⟨b', hb', heq⟩ := List.mem_map.mp hu
  rw [unit_injective heq] at hb'
  exact hescaped b hb (mem_encode hb')

/-! ## The path of a URL

For a path that is given from the root, without a backslash, a query or a
fragment. -/

def dotSpellings : List CodeUnits := ["." , "%2e", "%2E"].map CodeUnits.ofString

def isDot (segment : CodeUnits) : Bool := segment ∈ dotSpellings

def isDotDot (segment : CodeUnits) : Bool :=
  segment ∈ dotSpellings.flatMap fun s => dotSpellings.map (s ++ ·)

/-- `.` is passed over, `..` takes away the segment before it; at the end of
the path each leaves an empty segment. -/
def walkSegments (out : List CodeUnits) : List CodeUnits → List CodeUnits
  | [] => out
  | segment :: rest =>
      if isDotDot segment then
        walkSegments (if rest.isEmpty then out.dropLast ++ [[]] else out.dropLast) rest
      else if isDot segment then
        walkSegments (if rest.isEmpty then out ++ [[]] else out) rest
      else walkSegments (out ++ [segment]) rest

def urlSegments (path : CodeUnits) : List CodeUnits := walkSegments [] ((path.splitOn 47).drop 1)

theorem decode_of_isDot {segment : CodeUnits} (h : isDot segment = true) :
    decode (octets segment) = some [46] := by
  have hall : ∀ s ∈ dotSpellings, decode (octets s) = some [46] := by decide
  exact hall segment (of_decide_eq_true h)

theorem decode_of_isDotDot {segment : CodeUnits} (h : isDotDot segment = true) :
    decode (octets segment) = some [46, 46] := by
  have hall : ∀ s ∈ dotSpellings.flatMap fun s => dotSpellings.map (s ++ ·),
      decode (octets s) = some [46, 46] := by decide
  exact hall segment (of_decide_eq_true h)

end PercentEncoding
