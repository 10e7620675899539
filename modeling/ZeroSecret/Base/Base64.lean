import ZeroSecret.Base.Json

/-!
# Base64

The standard alphabet of RFC 4648 with padding, and the URL-safe alphabet
without. `decode` and `decodeUrl` are the strict readers: they take the texts
`encode` and `encodeUrl` write and read them back.
-/

namespace Base64

def alphabet : List Char :=
  ['A', 'B', 'C', 'D', 'E', 'F', 'G', 'H', 'I', 'J', 'K', 'L', 'M', 'N', 'O', 'P', 'Q', 'R', 'S',
    'T', 'U', 'V', 'W', 'X', 'Y', 'Z', 'a', 'b', 'c', 'd', 'e', 'f', 'g', 'h', 'i', 'j', 'k', 'l',
    'm', 'n', 'o', 'p', 'q', 'r', 's', 't', 'u', 'v', 'w', 'x', 'y', 'z', '0', '1', '2', '3', '4',
    '5', '6', '7', '8', '9', '+', '/']

/-- The digit of six bits. -/
def digit (n : Nat) : Char := alphabet.getD n '='

def value (c : Char) : Option Nat := alphabet.idxOf? c

/-- Groups of three octets; a last group of one or two is padded. -/
def encodeChars : Bytes → List Char
  | [] => []
  | [a] => [digit (a.toNat / 4), digit (a.toNat % 4 * 16), '=', '=']
  | [a, b] => [digit (a.toNat / 4), digit (a.toNat % 4 * 16 + b.toNat / 16),
      digit (b.toNat % 16 * 4), '=']
  | a :: b :: c :: rest =>
      digit (a.toNat / 4) :: digit (a.toNat % 4 * 16 + b.toNat / 16) ::
        digit (b.toNat % 16 * 4 + c.toNat / 64) :: digit (c.toNat % 64) :: encodeChars rest

def encode (bytes : Bytes) : String := String.ofList (encodeChars bytes)

/-- Groups of four digits; the bits that padding leaves over are zero. -/
def decodeChars : List Char → Option Bytes
  | [] => some []
  | w :: x :: y :: z :: rest => do
      let w ← value w
      let x ← value x
      if y = '=' then
        if z = '=' ∧ rest = [] ∧ x % 16 = 0 then some [UInt8.ofNat (w * 4 + x / 16)] else none
      else do
        let y ← value y
        if z = '=' then
          if rest = [] ∧ y % 4 = 0 then
            some [UInt8.ofNat (w * 4 + x / 16), UInt8.ofNat (x % 16 * 16 + y / 4)]
          else none
        else do
          let z ← value z
          let rest ← decodeChars rest
          some (UInt8.ofNat (w * 4 + x / 16) :: UInt8.ofNat (x % 16 * 16 + y / 4) ::
            UInt8.ofNat (y % 4 * 64 + z) :: rest)
  | _ => none

def decode (s : String) : Option Bytes := decodeChars s.toList

theorem value_digit : ∀ n < 64, value (digit n) = some n := by
  decide

theorem digit_ne_pad : ∀ n < 64, digit n ≠ '=' := by
  decide

theorem ofNat_eq {n : Nat} {b : UInt8} (h : n = b.toNat) : UInt8.ofNat n = b := by
  rw [h, UInt8.ofNat_toNat]

theorem decodeChars_encodeChars : ∀ bytes : Bytes, decodeChars (encodeChars bytes) = some bytes
  | [] => rfl
  | [a] => by
      have ha := a.toNat_lt
      have hw := value_digit (a.toNat / 4) (by omega)
      have hx := value_digit (a.toNat % 4 * 16) (by omega)
      have hval : UInt8.ofNat (a.toNat / 4 * 4 + a.toNat % 4 * 16 / 16) = a :=
        ofNat_eq (by omega)
      have h0 : a.toNat % 4 * 16 % 16 = 0 := by omega
      simp only [encodeChars, decodeChars, hw, hx, Option.bind_eq_bind, Option.bind_some, h0, hval]
      simp
  | [a, b] => by
      have ha := a.toNat_lt
      have hb := b.toNat_lt
      have hw := value_digit (a.toNat / 4) (by omega)
      have hx := value_digit (a.toNat % 4 * 16 + b.toNat / 16) (by omega)
      have hy := value_digit (b.toNat % 16 * 4) (by omega)
      have hy' := digit_ne_pad (b.toNat % 16 * 4) (by omega)
      have h1 : UInt8.ofNat (a.toNat / 4 * 4 + (a.toNat % 4 * 16 + b.toNat / 16) / 16) = a :=
        ofNat_eq (by omega)
      have h2 : UInt8.ofNat ((a.toNat % 4 * 16 + b.toNat / 16) % 16 * 16 +
          b.toNat % 16 * 4 / 4) = b := ofNat_eq (by omega)
      have h0 : b.toNat % 16 * 4 % 4 = 0 := by omega
      simp only [encodeChars, decodeChars, hw, hx, hy, if_neg hy', Option.bind_eq_bind,
        Option.bind_some, h0, h1, h2]
      simp
  | a :: b :: c :: rest => by
      have ha := a.toNat_lt
      have hb := b.toNat_lt
      have hc := c.toNat_lt
      have hw := value_digit (a.toNat / 4) (by omega)
      have hx := value_digit (a.toNat % 4 * 16 + b.toNat / 16) (by omega)
      have hy := value_digit (b.toNat % 16 * 4 + c.toNat / 64) (by omega)
      have hz := value_digit (c.toNat % 64) (by omega)
      have hy' := digit_ne_pad (b.toNat % 16 * 4 + c.toNat / 64) (by omega)
      have hz' := digit_ne_pad (c.toNat % 64) (by omega)
      have h1 : UInt8.ofNat (a.toNat / 4 * 4 + (a.toNat % 4 * 16 + b.toNat / 16) / 16) = a :=
        ofNat_eq (by omega)
      have h2 : UInt8.ofNat ((a.toNat % 4 * 16 + b.toNat / 16) % 16 * 16 +
          (b.toNat % 16 * 4 + c.toNat / 64) / 4) = b := ofNat_eq (by omega)
      have h3 : UInt8.ofNat ((b.toNat % 16 * 4 + c.toNat / 64) % 4 * 64 + c.toNat % 64) = c :=
        ofNat_eq (by omega)
      have ih : decodeChars (encodeChars rest) = some rest := decodeChars_encodeChars rest
      simp only [encodeChars, decodeChars, hw, hx, hy, hz, if_neg hy', if_neg hz', ih,
        Option.bind_eq_bind, Option.bind_some, h1, h2, h3]

/-- **What is encoded is read back.** -/
theorem decode_encode (bytes : Bytes) : decode (encode bytes) = some bytes := by
  rw [decode, encode, String.toList_ofList]
  exact decodeChars_encodeChars bytes

/-! ## URL-safe, without padding -/

/-- `A`–`Z`, `a`–`z`, `0`–`9`, `-`, `_`, by their codes. -/
def urlDigit (n : Nat) : Char :=
  if n < 26 then Char.ofNat (n + 65)
  else if n < 52 then Char.ofNat (n + 71)
  else if n < 62 then Char.ofNat (n - 4)
  else if n = 62 then '-'
  else '_'

def urlValue (c : Char) : Option Nat :=
  let n := c.toNat
  if 65 ≤ n ∧ n ≤ 90 then some (n - 65)
  else if 97 ≤ n ∧ n ≤ 122 then some (n - 71)
  else if 48 ≤ n ∧ n ≤ 57 then some (n + 4)
  else if n = 45 then some 62
  else if n = 95 then some 63
  else none

/-- A last group of one or two octets takes two or three digits. -/
def encodeUrlChars : Bytes → List Char
  | [] => []
  | [a] => [urlDigit (a.toNat / 4), urlDigit (a.toNat % 4 * 16)]
  | [a, b] => [urlDigit (a.toNat / 4), urlDigit (a.toNat % 4 * 16 + b.toNat / 16),
      urlDigit (b.toNat % 16 * 4)]
  | a :: b :: c :: rest =>
      urlDigit (a.toNat / 4) :: urlDigit (a.toNat % 4 * 16 + b.toNat / 16) ::
        urlDigit (b.toNat % 16 * 4 + c.toNat / 64) :: urlDigit (c.toNat % 64) ::
        encodeUrlChars rest

def encodeUrl (bytes : Bytes) : String := String.ofList (encodeUrlChars bytes)

/-- The bits a short last group leaves over are zero; one digit is no group. -/
def decodeUrlChars : List Char → Option Bytes
  | [] => some []
  | [_] => none
  | [w, x] => do
      let w ← urlValue w
      let x ← urlValue x
      if x % 16 = 0 then some [UInt8.ofNat (w * 4 + x / 16)] else none
  | [w, x, y] => do
      let w ← urlValue w
      let x ← urlValue x
      let y ← urlValue y
      if y % 4 = 0 then
        some [UInt8.ofNat (w * 4 + x / 16), UInt8.ofNat (x % 16 * 16 + y / 4)]
      else none
  | w :: x :: y :: z :: rest => do
      let w ← urlValue w
      let x ← urlValue x
      let y ← urlValue y
      let z ← urlValue z
      let rest ← decodeUrlChars rest
      some (UInt8.ofNat (w * 4 + x / 16) :: UInt8.ofNat (x % 16 * 16 + y / 4) ::
        UInt8.ofNat (y % 4 * 64 + z) :: rest)

def decodeUrl (s : String) : Option Bytes := decodeUrlChars (Json.chars s)

theorem urlValue_urlDigit : ∀ n < 64, urlValue (urlDigit n) = some n := by
  decide

theorem decodeUrlChars_encodeUrlChars :
    ∀ bytes : Bytes, decodeUrlChars (encodeUrlChars bytes) = some bytes
  | [] => rfl
  | [a] => by
      have ha := a.toNat_lt
      have hw := urlValue_urlDigit (a.toNat / 4) (by omega)
      have hx := urlValue_urlDigit (a.toNat % 4 * 16) (by omega)
      have h1 : UInt8.ofNat (a.toNat / 4 * 4 + a.toNat % 4 * 16 / 16) = a := ofNat_eq (by omega)
      have h0 : a.toNat % 4 * 16 % 16 = 0 := by omega
      simp only [encodeUrlChars, decodeUrlChars, hw, hx, Option.bind_eq_bind, Option.bind_some,
        h0, h1, if_true]
  | [a, b] => by
      have ha := a.toNat_lt
      have hb := b.toNat_lt
      have hw := urlValue_urlDigit (a.toNat / 4) (by omega)
      have hx := urlValue_urlDigit (a.toNat % 4 * 16 + b.toNat / 16) (by omega)
      have hy := urlValue_urlDigit (b.toNat % 16 * 4) (by omega)
      have h1 : UInt8.ofNat (a.toNat / 4 * 4 + (a.toNat % 4 * 16 + b.toNat / 16) / 16) = a :=
        ofNat_eq (by omega)
      have h2 : UInt8.ofNat ((a.toNat % 4 * 16 + b.toNat / 16) % 16 * 16 +
          b.toNat % 16 * 4 / 4) = b := ofNat_eq (by omega)
      have h0 : b.toNat % 16 * 4 % 4 = 0 := by omega
      simp only [encodeUrlChars, decodeUrlChars, hw, hx, hy, Option.bind_eq_bind,
        Option.bind_some, h0, h1, h2, if_true]
  | a :: b :: c :: rest => by
      have ha := a.toNat_lt
      have hb := b.toNat_lt
      have hc := c.toNat_lt
      have hw := urlValue_urlDigit (a.toNat / 4) (by omega)
      have hx := urlValue_urlDigit (a.toNat % 4 * 16 + b.toNat / 16) (by omega)
      have hy := urlValue_urlDigit (b.toNat % 16 * 4 + c.toNat / 64) (by omega)
      have hz := urlValue_urlDigit (c.toNat % 64) (by omega)
      have h1 : UInt8.ofNat (a.toNat / 4 * 4 + (a.toNat % 4 * 16 + b.toNat / 16) / 16) = a :=
        ofNat_eq (by omega)
      have h2 : UInt8.ofNat ((a.toNat % 4 * 16 + b.toNat / 16) % 16 * 16 +
          (b.toNat % 16 * 4 + c.toNat / 64) / 4) = b := ofNat_eq (by omega)
      have h3 : UInt8.ofNat ((b.toNat % 16 * 4 + c.toNat / 64) % 4 * 64 + c.toNat % 64) = c :=
        ofNat_eq (by omega)
      have ih : decodeUrlChars (encodeUrlChars rest) = some rest :=
        decodeUrlChars_encodeUrlChars rest
      simp only [encodeUrlChars, decodeUrlChars, hw, hx, hy, hz, ih, Option.bind_eq_bind,
        Option.bind_some, h1, h2, h3]

/-- **What is encoded is read back.** -/
theorem decodeUrl_encodeUrl (bytes : Bytes) : decodeUrl (encodeUrl bytes) = some bytes := by
  rw [decodeUrl, encodeUrl, Json.chars_eq_toList, String.toList_ofList]
  exact decodeUrlChars_encodeUrlChars bytes

end Base64
