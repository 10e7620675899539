import Mathlib.Data.List.Basic

/-!
# JSON texts: values, compact writer, reader

Float-free JSON. A value keeps its object members in a list, in the order a
map iterates them; nothing here sorts or deduplicates. The writer is the
compact one (no blank, short escapes where JSON has one, `\u00xx` for the
other control characters, everything else verbatim). The reader is the
ordinary one: blanks between tokens, every escape, surrogate pairs, no
trailing text.

Numbers are integers of any size; a fraction, an exponent or `-0` is a float
and is refused.
-/

/-- Octets. -/
abbrev Bytes : Type := List UInt8

theorem Bytes.length_zeros : (List.replicate 32 (0 : UInt8)).length = 32 := rfl

/-- Decided on the members of the list, also where the type has an enumeration
of its own. -/
instance (priority := 2000) List.decidableForallMembers {α : Type} (p : α → Prop)
    [DecidablePred p] (l : List α) : Decidable (∀ x ∈ l, p x) := List.decidableBAll p l

/-- A float-free JSON value. -/
inductive Json where
  | null
  | bool (b : Bool)
  | num (n : Int)
  | str (s : String)
  | arr (xs : List Json)
  | obj (kvs : List (String × Json))

namespace Json

/-! ## Texts -/

/-- UTF-8 octets of a text. -/
def utf8 (cs : List Char) : Bytes := cs.flatMap String.utf8EncodeChar

/-- The octets a string is stored as. -/
def octetsOf (s : String) : Bytes := s.toByteArray.data.toList

/-- The characters of a string; ASCII is read off the octets, which the kernel
evaluates quickly. -/
def chars (s : String) : List Char :=
  if (octetsOf s).all (· < 128) then (octetsOf s).map fun b => Char.ofNat b.toNat
  else s.toList

theorem octetsOf_eq_utf8 (s : String) : octetsOf s = utf8 s.toList := by
  have h : s.toByteArray = (utf8 s.toList).toByteArray := String.utf8Encode_toList.symm
  rw [octetsOf, h, List.toList_data_toByteArray]

theorem utf8_ascii : ∀ {cs : List Char}, (∀ b ∈ utf8 cs, b < 128) →
    (utf8 cs).map (fun b => Char.ofNat b.toNat) = cs
  | [], _ => rfl
  | c :: cs, h => by
      have ih : (utf8 cs).map (fun b => Char.ofNat b.toNat) = cs :=
        utf8_ascii fun b hb => h b (List.mem_append_right _ hb)
      have hc : ∀ b ∈ String.utf8EncodeChar c, b.toNat < 128 := fun b hb =>
        UInt8.lt_iff_toNat_lt.mp (h b (List.mem_append_left _ hb))
      have hv : c.val.toNat ≤ 127 := by
        by_contra hgt
        rw [String.utf8EncodeChar.eq_def] at hc
        simp only [if_neg hgt] at hc
        split at hc
        · have h0 := hc _ List.mem_cons_self
          rw [UInt8.toNat_ofNat'] at h0
          omega
        split at hc
        all_goals
          have h0 := hc _ List.mem_cons_self
          rw [UInt8.toNat_ofNat'] at h0
          omega
      have henc : (String.utf8EncodeChar c).map (fun b => Char.ofNat b.toNat) = [c] := by
        have hb : (UInt8.ofNat c.val.toNat).toNat = c.val.toNat := by
          rw [UInt8.toNat_ofNat']
          exact Nat.mod_eq_of_lt (by omega)
        rw [String.utf8EncodeChar.eq_def]
        simp only [if_pos hv, List.map_cons, List.map_nil, hb]
        exact congrArg (· :: []) (Char.ofNat_toNat c)
      change (String.utf8EncodeChar c ++ utf8 cs).map _ = c :: cs
      rw [List.map_append, henc, ih]
      rfl

theorem chars_eq_toList (s : String) : chars s = s.toList := by
  rw [chars]
  split
  · rename_i h
    rw [octetsOf_eq_utf8] at h ⊢
    exact utf8_ascii fun b hb => by simpa using List.all_eq_true.mp h b hb
  · rfl
/-! ## Writer -/

/-- One character inside a string literal. -/
def escapeChar (c : Char) : List Char :=
  if c = '"' then ['\\', '"']
  else if c = '\\' then ['\\', '\\']
  else if c = '\x08' then ['\\', 'b']
  else if c = '\x0c' then ['\\', 'f']
  else if c = '\n' then ['\\', 'n']
  else if c = '\r' then ['\\', 'r']
  else if c = '\t' then ['\\', 't']
  else if c.toNat < 0x20 then
    ['\\', 'u', '0', '0', (c.toNat / 16).digitChar, (c.toNat % 16).digitChar]
  else [c]

def escape (cs : List Char) : List Char := cs.flatMap escapeChar

def writeStr (s : String) : List Char := '"' :: (escape (chars s) ++ ['"'])

def writeNum : Int → List Char
  | .ofNat n => Nat.toDigits 10 n
  | .negSucc n => '-' :: Nat.toDigits 10 (n + 1)

mutual
def write : Json → List Char
  | .null => ['n', 'u', 'l', 'l']
  | .bool true => ['t', 'r', 'u', 'e']
  | .bool false => ['f', 'a', 'l', 's', 'e']
  | .num n => writeNum n
  | .str s => writeStr s
  | .arr xs => '[' :: writeElems xs
  | .obj kvs => '{' :: writeMembers kvs
/-- The elements of an array, with the closing bracket. -/
def writeElems : List Json → List Char
  | [] => [']']
  | [x] => write x ++ [']']
  | x :: y :: xs => write x ++ ',' :: writeElems (y :: xs)
/-- The members of an object, with the closing brace. -/
def writeMembers : List (String × Json) → List Char
  | [] => ['}']
  | [(k, v)] => writeStr k ++ ':' :: (write v ++ ['}'])
  | (k, v) :: m :: kvs =>
      writeStr k ++ ':' :: (write v ++ ',' :: writeMembers (m :: kvs))
end

/-- The octets of a value's compact text. -/
def toVec (v : Json) : Bytes := utf8 v.write

/-! ## Reader -/

def isBlank (c : Char) : Bool := c = ' ' || c = '\n' || c = '\t' || c = '\r'

def skipBlanks (cs : List Char) : List Char := cs.dropWhile isBlank

def hexVal (c : Char) : Option Nat :=
  if '0' ≤ c ∧ c ≤ '9' then some (c.toNat - '0'.toNat)
  else if 'a' ≤ c ∧ c ≤ 'f' then some (c.toNat - 'a'.toNat + 10)
  else if 'A' ≤ c ∧ c ≤ 'F' then some (c.toNat - 'A'.toNat + 10)
  else none

def readHex4 : List Char → Option (Nat × List Char)
  | a :: b :: c :: d :: rest => do
      let a ← hexVal a
      let b ← hexVal b
      let c ← hexVal c
      let d ← hexVal d
      some (((a * 16 + b) * 16 + c) * 16 + d, rest)
  | _ => none

/-- What follows `\u`: one code unit, or a surrogate pair. A lone surrogate
is refused. -/
def readUnicode (cs : List Char) : Option (Char × List Char) := do
  let (hi, rest) ← readHex4 cs
  if 0xD800 ≤ hi ∧ hi ≤ 0xDBFF then
    match rest with
    | '\\' :: 'u' :: rest => do
        let (lo, rest) ← readHex4 rest
        if 0xDC00 ≤ lo ∧ lo ≤ 0xDFFF then
          some (Char.ofNat (0x10000 + (hi - 0xD800) * 0x400 + (lo - 0xDC00)), rest)
        else none
    | _ => none
  else if 0xDC00 ≤ hi ∧ hi ≤ 0xDFFF then none
  else some (Char.ofNat hi, rest)

/-- One character of a string literal that is not its closing quote. -/
def readChar : List Char → Option (Char × List Char)
  | '\\' :: '"' :: rest => some ('"', rest)
  | '\\' :: '\\' :: rest => some ('\\', rest)
  | '\\' :: '/' :: rest => some ('/', rest)
  | '\\' :: 'b' :: rest => some ('\x08', rest)
  | '\\' :: 'f' :: rest => some ('\x0c', rest)
  | '\\' :: 'n' :: rest => some ('\n', rest)
  | '\\' :: 'r' :: rest => some ('\r', rest)
  | '\\' :: 't' :: rest => some ('\t', rest)
  | '\\' :: 'u' :: rest => readUnicode rest
  | '\\' :: _ => none
  | c :: rest => if c.toNat < 0x20 then none else some (c, rest)
  | [] => none

/-- A string literal after its opening quote. Each character costs one unit
of fuel, so the length of the text is enough. -/
def readStr : Nat → List Char → Option (List Char × List Char)
  | _, '"' :: rest => some ([], rest)
  | 0, _ => none
  | n + 1, cs => do
      let (c, cs) ← readChar cs
      let (s, cs) ← readStr n cs
      some (c :: s, cs)

/-- A character that would continue a number, or turn it into a float. -/
def numTail (c : Char) : Bool := c.isDigit || c = '.' || c = 'e' || c = 'E'

def readNat (cs : List Char) : Option (Nat × List Char) :=
  let digits := cs.takeWhile Char.isDigit
  let rest := cs.dropWhile Char.isDigit
  if digits = [] then none
  else if digits.head? = some '0' ∧ digits ≠ ['0'] then none
  else if rest.head?.any numTail then none
  else some (Nat.ofDigitChars 10 digits 0, rest)

def readNum : List Char → Option (Int × List Char)
  | '-' :: rest => do
      let (n, rest) ← readNat rest
      if n = 0 then none else some (-(n : Int), rest)
  | cs => do
      let (n, rest) ← readNat cs
      some ((n : Int), rest)

mutual
/-- One value. The fuel bounds the nesting and the number of elements; the
length of the text is enough (`readValue_write`). -/
def readValue : Nat → List Char → Option (Json × List Char)
  | 0, _ => none
  | n + 1, cs =>
      match skipBlanks cs with
      | 'n' :: 'u' :: 'l' :: 'l' :: rest => some (.null, rest)
      | 't' :: 'r' :: 'u' :: 'e' :: rest => some (.bool true, rest)
      | 'f' :: 'a' :: 'l' :: 's' :: 'e' :: rest => some (.bool false, rest)
      | '"' :: rest => do
          let (s, rest) ← readStr rest.length rest
          some (.str (String.ofList s), rest)
      | '[' :: rest =>
          match skipBlanks rest with
          | ']' :: rest => some (.arr [], rest)
          | rest => do
              let (xs, rest) ← readElems n rest
              some (.arr xs, rest)
      | '{' :: rest =>
          match skipBlanks rest with
          | '}' :: rest => some (.obj [], rest)
          | rest => do
              let (kvs, rest) ← readMembers n rest
              some (.obj kvs, rest)
      | cs => do
          let (i, rest) ← readNum cs
          some (.num i, rest)
def readElems : Nat → List Char → Option (List Json × List Char)
  | 0, _ => none
  | n + 1, cs => do
      let (x, rest) ← readValue n cs
      match skipBlanks rest with
      | ',' :: rest => do
          let (xs, rest) ← readElems n rest
          some (x :: xs, rest)
      | ']' :: rest => some ([x], rest)
      | _ => none
def readMembers : Nat → List Char → Option (List (String × Json) × List Char)
  | 0, _ => none
  | n + 1, cs =>
      match skipBlanks cs with
      | '"' :: rest => do
          let (k, rest) ← readStr rest.length rest
          match skipBlanks rest with
          | ':' :: rest => do
              let (v, rest) ← readValue n rest
              match skipBlanks rest with
              | ',' :: rest => do
                  let (kvs, rest) ← readMembers n rest
                  some ((String.ofList k, v) :: kvs, rest)
              | '}' :: rest => some ([(String.ofList k, v)], rest)
              | _ => none
          | _ => none
      | _ => none
end

/-- A whole text: one value, then nothing but blanks. -/
def readText (cs : List Char) : Option Json := do
  let (v, rest) ← readValue (cs.length + 1) cs
  if skipBlanks rest = [] then some v else none

/-- Octets to value: the text must be UTF-8. -/
def fromSlice (bs : Bytes) : Option Json := do
  let cs ← bs.toByteArray.utf8Decode?
  readText cs.toList

end Json
