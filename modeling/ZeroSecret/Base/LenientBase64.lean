import ZeroSecret.Base.Base64
import ZeroSecret.Base.Script

/-!
# Base64 read leniently

The reader of a script's buffers: it takes the digits of both alphabets, passes
over every other unit, stops at a padding and drops the bits that make no
octet. Many texts stand for the same octets; the text that is written is one of
them.
-/

namespace Base64

/-- `toString("base64url")`. -/
def urlUnits (bytes : Bytes) : CodeUnits := CodeUnits.ofChars (encodeUrlChars bytes)

def unitValue (u : UInt16) : Option Nat :=
  let n := u.toNat
  if 65 ≤ n ∧ n ≤ 90 then some (n - 65)
  else if 97 ≤ n ∧ n ≤ 122 then some (n - 71)
  else if 48 ≤ n ∧ n ≤ 57 then some (n + 4)
  else if n = 43 ∨ n = 45 then some 62
  else if n = 47 ∨ n = 95 then some 63
  else none

def lenientDigits : CodeUnits → List Nat
  | [] => []
  | u :: rest =>
      if u = 61 then [] else
      match unitValue u with
      | some n => n :: lenientDigits rest
      | none => lenientDigits rest

/-- Groups of four digits; a last group of two or three gives one or two octets. -/
def octetsOfDigits : List Nat → Bytes
  | w :: x :: y :: z :: rest =>
      UInt8.ofNat (w * 4 + x / 16) :: UInt8.ofNat (x % 16 * 16 + y / 4) ::
        UInt8.ofNat (y % 4 * 64 + z) :: octetsOfDigits rest
  | [w, x, y] => [UInt8.ofNat (w * 4 + x / 16), UInt8.ofNat (x % 16 * 16 + y / 4)]
  | [w, x] => [UInt8.ofNat (w * 4 + x / 16)]
  | _ => []

/-- `Buffer.from(text, "base64url")`. -/
def lenient (text : CodeUnits) : Bytes := octetsOfDigits (lenientDigits text)

theorem unitValue_urlDigit :
    ∀ n < 64, UInt16.ofNat (urlDigit n).toNat ≠ 61 ∧
      unitValue (UInt16.ofNat (urlDigit n).toNat) = some n := by
  decide

theorem lenientDigits_cons {n : Nat} (hn : n < 64) (cs : List Char) :
    lenientDigits (CodeUnits.ofChars (urlDigit n :: cs)) =
      n :: lenientDigits (CodeUnits.ofChars cs) := by
  obtain ⟨hpad, hvalue⟩ := unitValue_urlDigit n hn
  rw [CodeUnits.ofChars, List.map_cons, lenientDigits, if_neg hpad, hvalue]
  rfl

theorem octetsOfDigits_urlUnits :
    ∀ bytes : Bytes, octetsOfDigits (lenientDigits (urlUnits bytes)) = bytes
  | [] => rfl
  | [a] => by
      have ha := a.toNat_lt
      have h1 : UInt8.ofNat (a.toNat / 4 * 4 + a.toNat % 4 * 16 / 16) = a := ofNat_eq (by omega)
      rw [urlUnits, encodeUrlChars, lenientDigits_cons (by omega), lenientDigits_cons (by omega)]
      show [_] = [a]
      rw [h1]
  | [a, b] => by
      have ha := a.toNat_lt
      have hb := b.toNat_lt
      have h1 : UInt8.ofNat (a.toNat / 4 * 4 + (a.toNat % 4 * 16 + b.toNat / 16) / 16) = a :=
        ofNat_eq (by omega)
      have h2 : UInt8.ofNat ((a.toNat % 4 * 16 + b.toNat / 16) % 16 * 16 +
          b.toNat % 16 * 4 / 4) = b := ofNat_eq (by omega)
      rw [urlUnits, encodeUrlChars, lenientDigits_cons (by omega), lenientDigits_cons (by omega),
        lenientDigits_cons (by omega)]
      show [_, _] = [a, b]
      rw [h1, h2]
  | a :: b :: c :: rest => by
      have ha := a.toNat_lt
      have hb := b.toNat_lt
      have hc := c.toNat_lt
      have h1 : UInt8.ofNat (a.toNat / 4 * 4 + (a.toNat % 4 * 16 + b.toNat / 16) / 16) = a :=
        ofNat_eq (by omega)
      have h2 : UInt8.ofNat ((a.toNat % 4 * 16 + b.toNat / 16) % 16 * 16 +
          (b.toNat % 16 * 4 + c.toNat / 64) / 4) = b := ofNat_eq (by omega)
      have h3 : UInt8.ofNat ((b.toNat % 16 * 4 + c.toNat / 64) % 4 * 64 + c.toNat % 64) = c :=
        ofNat_eq (by omega)
      have ih := octetsOfDigits_urlUnits rest
      rw [urlUnits, encodeUrlChars, lenientDigits_cons (by omega), lenientDigits_cons (by omega),
        lenientDigits_cons (by omega), lenientDigits_cons (by omega), octetsOfDigits, h1, h2, h3]
      rw [urlUnits] at ih
      rw [ih]

theorem lenient_urlUnits (bytes : Bytes) : lenient (urlUnits bytes) = bytes :=
  octetsOfDigits_urlUnits bytes

theorem urlDigit_lt : ∀ n, (urlDigit n).toNat < 0x10000 := by
  intro n
  by_cases hn : n < 64
  · revert n
    decide
  · have hlast : urlDigit n = '_' := by
      rw [urlDigit, if_neg (by omega), if_neg (by omega), if_neg (by omega), if_neg (by omega)]
    rw [hlast]
    decide

theorem mem_encodeUrlChars {c : Char} : ∀ {bytes : Bytes}, c ∈ encodeUrlChars bytes →
    ∃ n, c = urlDigit n
  | [], h => by cases h
  | [a], h => by
      simp only [encodeUrlChars, List.mem_cons, List.not_mem_nil, or_false] at h
      rcases h with h | h <;> exact ⟨_, h⟩
  | [a, b], h => by
      simp only [encodeUrlChars, List.mem_cons, List.not_mem_nil, or_false] at h
      rcases h with h | h | h <;> exact ⟨_, h⟩
  | a :: b :: d :: rest, h => by
      simp only [encodeUrlChars, List.mem_cons] at h
      rcases h with h | h | h | h | h
      · exact ⟨_, h⟩
      · exact ⟨_, h⟩
      · exact ⟨_, h⟩
      · exact ⟨_, h⟩
      · exact mem_encodeUrlChars h

/-- The text of `encodeUrl` in code units. -/
theorem ofString_encodeUrl (bytes : Bytes) : CodeUnits.ofString (encodeUrl bytes) = urlUnits bytes := by
  refine CodeUnits.ofString_ofList fun c hc => ?_
  obtain ⟨n, rfl⟩ := mem_encodeUrlChars hc
  exact urlDigit_lt n

/-! ## Both alphabets -/

/-- The values of six bits that octets are written in. -/
def sixes : Bytes → List Nat
  | [] => []
  | [a] => [a.toNat / 4, a.toNat % 4 * 16]
  | [a, b] => [a.toNat / 4, a.toNat % 4 * 16 + b.toNat / 16, b.toNat % 16 * 4]
  | a :: b :: c :: rest =>
      (a.toNat / 4) :: (a.toNat % 4 * 16 + b.toNat / 16) :: (b.toNat % 16 * 4 + c.toNat / 64) ::
        (c.toNat % 64) :: sixes rest

/-- How many paddings complete the last group. -/
def paddingLength : Bytes → Nat
  | [] => 0
  | [_] => 2
  | [_, _] => 1
  | _ :: _ :: _ :: rest => paddingLength rest

theorem sixes_lt {n : Nat} : ∀ {bytes : Bytes}, n ∈ sixes bytes → n < 64
  | [], h => by cases h
  | [a], h => by
      have ha := a.toNat_lt
      simp only [sixes, List.mem_cons, List.not_mem_nil, or_false] at h
      rcases h with rfl | rfl <;> omega
  | [a, b], h => by
      have ha := a.toNat_lt
      have hb := b.toNat_lt
      simp only [sixes, List.mem_cons, List.not_mem_nil, or_false] at h
      rcases h with rfl | rfl | rfl <;> omega
  | a :: b :: c :: rest, h => by
      have ha := a.toNat_lt
      have hb := b.toNat_lt
      have hc := c.toNat_lt
      simp only [sixes, List.mem_cons] at h
      rcases h with rfl | rfl | rfl | rfl | h
      · omega
      · omega
      · omega
      · omega
      · exact sixes_lt h

theorem sixes_ne_nil : ∀ {bytes : Bytes}, bytes ≠ [] → sixes bytes ≠ []
  | [], h => absurd rfl h
  | [_], _ => List.cons_ne_nil _ _
  | [_, _], _ => List.cons_ne_nil _ _
  | _ :: _ :: _ :: _, _ => List.cons_ne_nil _ _

theorem paddingLength_le : ∀ bytes : Bytes, paddingLength bytes ≤ 2
  | [] => Nat.zero_le 2
  | [_] => Nat.le_refl 2
  | [_, _] => Nat.le_succ 1
  | _ :: _ :: _ :: rest => paddingLength_le rest

theorem encodeUrlChars_eq : ∀ bytes : Bytes, encodeUrlChars bytes = (sixes bytes).map urlDigit
  | [] => rfl
  | [_] => rfl
  | [_, _] => rfl
  | a :: b :: c :: rest => by
      rw [encodeUrlChars, encodeUrlChars_eq rest]
      rfl

theorem encodeChars_eq : ∀ bytes : Bytes, encodeChars bytes =
    (sixes bytes).map digit ++ List.replicate (paddingLength bytes) '='
  | [] => rfl
  | [_] => rfl
  | [_, _] => rfl
  | a :: b :: c :: rest => by
      rw [encodeChars, encodeChars_eq rest]
      rfl

theorem unitValue_digit :
    ∀ n < 64, UInt16.ofNat (digit n).toNat ≠ 61 ∧
      unitValue (UInt16.ofNat (digit n).toNat) = some n := by
  decide

/-- Digits of one of the alphabets are read one by one, up to a padding. -/
theorem lenientDigits_map {char : Nat → Char}
    (hchar : ∀ n < 64, UInt16.ofNat (char n).toNat ≠ 61 ∧
      unitValue (UInt16.ofNat (char n).toNat) = some n) {values : List Nat}
    (h : ∀ n ∈ values, n < 64) (padding : Nat) :
    lenientDigits (CodeUnits.ofChars (values.map char) ++ List.replicate padding 61) = values := by
  induction values with
  | nil =>
      cases padding with
      | zero => rfl
      | succ padding => exact if_pos rfl
  | cons n values ih =>
      obtain ⟨hpad, hvalue⟩ := hchar n (h n List.mem_cons_self)
      have hrest := ih fun m hm => h m (List.mem_cons_of_mem n hm)
      rw [CodeUnits.ofChars] at hrest
      rw [List.map_cons, CodeUnits.ofChars, List.map_cons, List.cons_append, lenientDigits,
        if_neg hpad, hvalue]
      exact congrArg (n :: ·) hrest

theorem octetsOfDigits_sixes (bytes : Bytes) : octetsOfDigits (sixes bytes) = bytes := by
  have hread := octetsOfDigits_urlUnits bytes
  have hunits := lenientDigits_map unitValue_urlDigit (fun n hn => @sixes_lt n bytes hn) 0
  rw [List.replicate_zero, List.append_nil, ← encodeUrlChars_eq] at hunits
  rwa [urlUnits, hunits] at hread

/-- Standard digits are read back, whatever padding follows them. -/
theorem lenient_digits (bytes : Bytes) (padding : Nat) :
    lenient (CodeUnits.ofChars ((sixes bytes).map digit) ++ List.replicate padding 61) = bytes := by
  rw [lenient, lenientDigits_map unitValue_digit (fun n hn => @sixes_lt n bytes hn),
    octetsOfDigits_sixes]

end Base64
