import ZeroSecret.Base.Der
import ZeroSecret.Base.Slices
import ZeroSecret.Hsm.SessionPool

/-!
# `decode_ec_point`

The decoder of `CKA_EC_POINT` read by read, and the octets it accepts: an
OCTET STRING whose length is in the short form or in the long form of at most
four octets, the fewest or not.
-/

namespace ZeroSecret.Hsm

open Fallible

/-! ## Read by read

`none` is a panic, as in `Slice`. -/

/-- `length = (length << 8) | b` over the octets. -/
def beLengthChecked (bytes : Bytes) : Option Nat :=
  bytes.foldlM (fun length b => (Slice.shiftLeft8 length).map (· ||| b.toNat)) 0

def octetStringHeaderChecked (der : Bytes) (first : UInt8) : Option (Except HsmError (Nat × Nat)) :=
  if first &&& 0x80 = 0 then some (.ok (2, first.toNat))
  else
    let lengthBytes := (first &&& 0x7F).toNat
    if lengthBytes = 0 ∨ lengthBytes > 4 then some (.error .deviceError)
    else do
      let stop ← Slice.add 2 lengthBytes
      if der.length < stop then some (.error .deviceError)
      else do
        let length ← beLengthChecked (← Slice.range der 2 stop)
        some (.ok (stop, length))

def decodeEcPointChecked (der : Bytes) : Option (Except HsmError Bytes) :=
  if der.length < 2 then some (.error .deviceError)
  else do
    let tag ← Slice.index der 0
    if tag ≠ 0x04 then some (.error .deviceError)
    else do
      match ← octetStringHeaderChecked der (← Slice.index der 1) with
      | .error e => some (.error e)
      | .ok (contentStart, length) => do
          let stop ← Slice.add contentStart length
          -- `get` answers `None` out of range
          match Slice.range der contentStart stop with
          | some content => some (.ok content)
          | none => some (.error .deviceError)

theorem beLength_eq_read (bytes : Bytes) : beLength bytes = BigEndian.read bytes := by
  have hstep : ∀ (length : Nat) (b : UInt8), (length <<< 8) ||| b.toNat = length * 256 + b.toNat := by
    intro length b
    rw [← Nat.shiftLeft_add_eq_or_of_lt (show b.toNat < 2 ^ 8 from b.toNat_lt), Nat.shiftLeft_eq]
  simp only [beLength, BigEndian.read, hstep]

theorem beLength_lt {bytes : Bytes} (h : bytes.length ≤ 4) : beLength bytes < 2 ^ 32 := by
  have hread := BigEndian.read_lt bytes
  rw [beLength_eq_read]
  calc BigEndian.read bytes < 256 ^ bytes.length := hread
    _ ≤ 256 ^ 4 := Nat.pow_le_pow_right (by decide) h
    _ = 2 ^ 32 := by norm_num

/-- Four octets do not fill a `usize`. -/
theorem beLengthChecked_eq {bytes : Bytes} (h : bytes.length ≤ 4) :
    beLengthChecked bytes = some (beLength bytes) := by
  induction bytes using List.reverseRecOn with
  | nil => rfl
  | append_singleton bytes b ih =>
      rw [List.length_append, List.length_singleton] at h
      have hlt : beLength bytes < 2 ^ 32 := beLength_lt (by omega)
      have hlast : beLength (bytes ++ [b]) = (beLength bytes <<< 8) ||| b.toNat := by
        rw [beLength, List.foldl_append]
        rfl
      rw [beLengthChecked, List.foldlM_append]
      show (beLengthChecked bytes).bind _ = _
      rw [ih (by omega)]
      show (Slice.shiftLeft8 (beLength bytes)).map _ >>= _ = _
      rw [Slice.shiftLeft8_of_lt (by omega), hlast]
      rfl

theorem octetStringHeaderChecked_eq (der : Bytes) (first : UInt8) :
    octetStringHeaderChecked der first = some (octetStringHeader der first) := by
  unfold octetStringHeaderChecked octetStringHeader
  split
  · rfl
  · simp only
    by_cases hcount : (first &&& 0x7F).toNat = 0 ∨ (first &&& 0x7F).toNat > 4
    · have hrefused : (first &&& 0x7F).toNat = 0 ∨ (first &&& 0x7F).toNat > 4 ∨
          der.length < 2 + (first &&& 0x7F).toNat := hcount.imp_right Or.inl
      rw [if_pos hcount, if_pos hrefused]
    · obtain ⟨h0, h4⟩ := not_or.mp hcount
      rw [if_neg hcount, Slice.add_of_lt (by omega)]
      show (if der.length < 2 + (first &&& 0x7F).toNat then _ else _) = _
      by_cases hshort : der.length < 2 + (first &&& 0x7F).toNat
      · rw [if_pos hshort, if_pos (Or.inr (Or.inr hshort))]
      · have hwidth : ((der.drop 2).take (first &&& 0x7F).toNat).length ≤ 4 := by
          rw [List.length_take]
          omega
        have hfine : ¬((first &&& 0x7F).toNat = 0 ∨ (first &&& 0x7F).toNat > 4 ∨
            der.length < 2 + (first &&& 0x7F).toNat) := by
          omega
        rw [if_neg hshort, if_neg hfine, Slice.range_of_le (by omega) (by omega),
          Nat.add_sub_cancel_left]
        show (beLengthChecked _).bind _ = _
        rw [beLengthChecked_eq hwidth]
        rfl

/-- What a header announces. -/
theorem octetStringHeader_le {der : Bytes} {first : UInt8} {contentStart length : Nat}
    (h : octetStringHeader der first = .ok (contentStart, length)) :
    contentStart ≤ 6 ∧ length < 2 ^ 32 := by
  unfold octetStringHeader at h
  split at h
  · obtain ⟨rfl, rfl⟩ := Prod.mk.inj (Except.ok.inj h)
    have hlt := first.toNat_lt
    omega
  · simp only at h
    split at h
    · cases h
    · rename_i hfine
      obtain ⟨rfl, rfl⟩ := Prod.mk.inj (Except.ok.inj h)
      refine ⟨by omega, beLength_lt ?_⟩
      rw [List.length_take]
      omega

/-- **No octets make the decoder panic**, and nothing overflows. -/
theorem decodeEcPointChecked_eq (der : Bytes) :
    decodeEcPointChecked der = some (decodeEcPoint der) := by
  match der with
  | [] => rfl
  | [_] => rfl
  | tag :: first :: rest =>
      have hlong : ¬ (tag :: first :: rest).length < 2 := by
        simp only [List.length_cons]
        omega
      rw [decodeEcPointChecked, if_neg hlong, decodeEcPoint]
      show (if tag ≠ 0x04 then _ else _) = _
      by_cases htag : tag = 0x04
      · rw [if_neg (not_not.mpr htag), if_pos htag]
        show (octetStringHeaderChecked (tag :: first :: rest) first).bind _ = _
        rw [octetStringHeaderChecked_eq]
        cases hheader : octetStringHeader (tag :: first :: rest) first with
        | error e => rfl
        | ok header =>
            obtain ⟨contentStart, length⟩ := header
            obtain ⟨hstart, hlength⟩ := octetStringHeader_le hheader
            show (Slice.add contentStart length).bind _ = some (if _ then _ else _)
            rw [Slice.add_of_lt (by omega)]
            by_cases hfits : contentStart + length ≤ (tag :: first :: rest).length
            · rw [if_pos hfits]
              show (match Slice.range _ _ _ with | some content => _ | none => _) = _
              rw [Slice.range_of_le (Nat.le_add_right _ _) hfits, Nat.add_sub_cancel_left]
            · rw [if_neg hfits]
              show (match Slice.range _ _ _ with | some content => _ | none => _) = _
              rw [Slice.range, if_neg (fun h => hfits h.2)]
      · rw [if_pos htag, if_neg htag]

/-! ## The octets accepted -/

/-- A length in the short form, or in the long form of one to four octets,
whether the fewest or not. -/
inductive LengthOctets : Bytes → Nat → Prop where
  | short (first : UInt8) : first &&& 0x80 = 0 → LengthOctets [first] first.toNat
  | long (first : UInt8) (octets : Bytes) : first &&& 0x80 ≠ 0 →
      (first &&& 0x7F).toNat = octets.length → 1 ≤ octets.length → octets.length ≤ 4 →
      LengthOctets (first :: octets) (BigEndian.read octets)

theorem octetStringHeader_of_lengthOctets {first : UInt8} {octets : Bytes} {length : Nat}
    (h : LengthOctets (first :: octets) length) (tag : UInt8) (tail : Bytes) :
    octetStringHeader (tag :: first :: (octets ++ tail)) first =
      .ok (2 + octets.length, length) := by
  cases h with
  | short _ hbit => rw [octetStringHeader, if_pos hbit, List.length_nil]
  | long _ _ hbit hcount hpos hle =>
      have hfine : ¬((first &&& 0x7F).toNat = 0 ∨ (first &&& 0x7F).toNat > 4 ∨
          (tag :: first :: (octets ++ tail)).length < 2 + (first &&& 0x7F).toNat) := by
        simp only [List.length_cons, List.length_append]
        omega
      rw [octetStringHeader, if_neg hbit]
      show (if _ then _ else _) = _
      rw [if_neg hfine, hcount, beLength_eq_read, show (tag :: first :: (octets ++ tail)).drop 2 =
        octets ++ tail from rfl, List.take_left]

theorem lengthOctets_of_octetStringHeader {tag first : UInt8} {rest : Bytes}
    {contentStart length : Nat}
    (h : octetStringHeader (tag :: first :: rest) first = .ok (contentStart, length)) :
    ∃ octets tail, rest = octets ++ tail ∧ LengthOctets (first :: octets) length ∧
      contentStart = 2 + octets.length := by
  unfold octetStringHeader at h
  split at h
  · rename_i hbit
    obtain ⟨rfl, rfl⟩ := Prod.mk.inj (Except.ok.inj h)
    exact ⟨[], rest, rfl, .short first hbit, rfl⟩
  · rename_i hbit
    simp only at h
    split at h
    · cases h
    · rename_i hfine
      obtain ⟨rfl, rfl⟩ := Prod.mk.inj (Except.ok.inj h)
      simp only [List.length_cons] at hfine
      have hcount : (rest.take (first &&& 0x7F).toNat).length = (first &&& 0x7F).toNat := by
        rw [List.length_take]
        omega
      refine ⟨rest.take (first &&& 0x7F).toNat, rest.drop (first &&& 0x7F).toNat,
        (List.take_append_drop _ _).symm, ?_, by rw [hcount]⟩
      rw [beLength_eq_read]
      exact .long first _ hbit hcount.symm (by omega) (by omega)

/-- The content announced, whatever it is and whatever follows. -/
theorem decodeEcPoint_eq_ok_iff {der p : Bytes} :
    decodeEcPoint der = .ok p ↔ ∃ lengthOctets rest, LengthOctets lengthOctets p.length ∧
      der = 0x04 :: (lengthOctets ++ (p ++ rest)) := by
  constructor
  · intro h
    match der, h with
    | tag :: first :: rest, h =>
        unfold decodeEcPoint at h
        simp only at h
        split at h
        · rename_i htag
          obtain ⟨⟨contentStart, length⟩, hheader, h⟩ := bind_eq_ok_iff.mp h
          obtain ⟨octets, tail, rfl, hoctets, rfl⟩ := lengthOctets_of_octetStringHeader hheader
          simp only at h
          split at h
          · rename_i hfits
            simp only [List.length_cons, List.length_append] at hfits
            have hdrop : (tag :: first :: (octets ++ tail)).drop (2 + octets.length) = tail := by
              rw [← List.drop_drop]
              exact List.drop_left
            rw [hdrop] at h
            have hp : tail.take length = p := Except.ok.inj h
            have hlength : p.length = length := by
              rw [← hp, List.length_take]
              omega
            refine ⟨first :: octets, tail.drop length, by rw [hlength]; exact hoctets, ?_⟩
            rw [← hp, List.take_append_drop, htag]
            rfl
          · cases h
        · cases h
  · rintro ⟨lengthOctets, rest, hoctets, rfl⟩
    match lengthOctets, hoctets with
    | first :: octets, hoctets =>
        have hheader := octetStringHeader_of_lengthOctets hoctets 0x04 (p ++ rest)
        have hdrop : ((0x04 : UInt8) :: first :: (octets ++ (p ++ rest))).drop
            (2 + octets.length) = p ++ rest := by
          rw [← List.drop_drop]
          exact List.drop_left
        have hfits : 2 + octets.length + p.length ≤
            ((0x04 : UInt8) :: first :: (octets ++ (p ++ rest))).length := by
          simp only [List.length_cons, List.length_append]
          omega
        show decodeEcPoint (0x04 :: first :: (octets ++ (p ++ rest))) = _
        rw [decodeEcPoint, if_pos rfl, hheader]
        show (if _ then _ else _) = _
        rw [if_pos hfits, hdrop, List.take_left]

theorem failsWith_octetStringHeader (der : Bytes) (first : UInt8) :
    FailsWith (· = HsmError.deviceError) (octetStringHeader der first) := by
  intro e h
  unfold octetStringHeader at h
  split at h
  · cases h
  · simp only at h
    split at h
    · exact (Except.error.inj h).symm
    · cases h

/-- One refusal for everything. -/
theorem failsWith_decodeEcPoint (der : Bytes) :
    FailsWith (· = HsmError.deviceError) (decodeEcPoint der) := by
  match der with
  | [] => exact fun e h => (Except.error.inj h).symm
  | [_] => exact fun e h => (Except.error.inj h).symm
  | tag :: first :: rest =>
      rw [decodeEcPoint]
      split
      · refine failsWith_bind (failsWith_octetStringHeader _ _) fun header e h => ?_
        simp only at h
        split at h
        · cases h
        · exact (Except.error.inj h).symm
      · exact fun e h => (Except.error.inj h).symm

/-! ## The form of a point -/

/-- An uncompressed point of P-256. -/
def UncompressedPoint (p : Bytes) : Prop := p.length = 65 ∧ p.head? = some 0x04

/-- **The form of `CKA_EC_POINT`.** Without reading out of range and without
overflow, for any octets: an OCTET STRING of a point and nothing else is
decoded, with its length in any form of `LengthOctets`; what is decoded is the
content such a length announces; every refusal is a device error. -/
theorem decodeEcPoint_form (der : Bytes) :
    decodeEcPointChecked der = some (decodeEcPoint der) ∧
    (∀ lengthOctets p, UncompressedPoint p → LengthOctets lengthOctets p.length →
      der = 0x04 :: (lengthOctets ++ p) → decodeEcPoint der = .ok p) ∧
    (∀ p, decodeEcPoint der = .ok p → ∃ lengthOctets rest, LengthOctets lengthOctets p.length ∧
      der = 0x04 :: (lengthOctets ++ (p ++ rest))) ∧
    ∀ e, decodeEcPoint der = .error e → e = .deviceError := by
  refine ⟨decodeEcPointChecked_eq der, ?_, fun p => decodeEcPoint_eq_ok_iff.mp,
    failsWith_decodeEcPoint der⟩
  rintro lengthOctets p - hoctets rfl
  exact decodeEcPoint_eq_ok_iff.mpr ⟨lengthOctets, [], hoctets, by rw [List.append_nil]⟩

/-- The point of the tests. -/
def samplePoint : Bytes := 0x04 :: (List.range 64).map UInt8.ofNat

/-- A length in more octets than it takes is read, as the tests have it. -/
theorem long_form_decoded :
    ¬ ∀ der p, decodeEcPoint der = .ok p ↔ der = Der.element 0x04 p ∧ UncompressedPoint p := by
  intro hexact
  have hdecoded : decodeEcPoint ([0x04, 0x81, 0x41] ++ samplePoint) = .ok samplePoint := by
    decide
  have hencoded := ((hexact _ _).mp hdecoded).1
  exact absurd hencoded (by decide)

end ZeroSecret.Hsm
