import Mathlib.Tactic
import ZeroSecret.Base.Json

/-!
# Big-endian numbers and DER signatures

Numbers as octets of a given width, and the distinguished encoding of an
`Ecdsa-Sig-Value`: a sequence of two integers, each in the fewest octets that
leave its sign bit clear.
-/

namespace BigEndian

/-- The last `width` octets of a number, the most significant first. -/
def write : (width : Nat) → Nat → Bytes
  | 0, _ => []
  | width + 1, n => UInt8.ofNat (n / 256 ^ width) :: write width n

def read (bytes : Bytes) : Nat := bytes.foldl (fun n b => n * 256 + b.toNat) 0

@[simp] theorem length_write (width n : Nat) : (write width n).length = width := by
  induction width with
  | zero => rfl
  | succ width ih => rw [write, List.length_cons, ih]

theorem foldl_eq (acc : Nat) (bytes : Bytes) :
    bytes.foldl (fun n b => n * 256 + b.toNat) acc = acc * 256 ^ bytes.length + read bytes := by
  induction bytes generalizing acc with
  | nil => simp [read]
  | cons b bs ih =>
      have hread : read (b :: bs) = (0 * 256 + b.toNat) * 256 ^ bs.length + read bs := ih _
      rw [List.foldl_cons, ih, hread, List.length_cons]
      ring

theorem read_cons (b : UInt8) (bs : Bytes) :
    read (b :: bs) = b.toNat * 256 ^ bs.length + read bs := by
  rw [read, List.foldl_cons, foldl_eq, Nat.zero_mul, Nat.zero_add]

theorem read_lt (bytes : Bytes) : read bytes < 256 ^ bytes.length := by
  induction bytes with
  | nil => decide
  | cons b bs ih =>
      have hb := b.toNat_lt
      calc read (b :: bs) = b.toNat * 256 ^ bs.length + read bs := read_cons b bs
        _ < b.toNat * 256 ^ bs.length + 256 ^ bs.length := by omega
        _ = (b.toNat + 1) * 256 ^ bs.length := by ring
        _ ≤ 256 * 256 ^ bs.length := Nat.mul_le_mul_right _ (by omega)
        _ = 256 ^ (b :: bs).length := by rw [List.length_cons, Nat.pow_succ]; ring

theorem read_write_mod (width n : Nat) : read (write width n) = n % 256 ^ width := by
  induction width with
  | zero => simp [write, read, Nat.mod_one]
  | succ width ih =>
      have hmod : n % 256 ^ (width + 1) = n % 256 ^ width + 256 ^ width * (n / 256 ^ width % 256) := by
        rw [pow_succ, Nat.mod_mul]
      rw [write, read_cons, ih, length_write, UInt8.toNat_ofNat', hmod]
      ring

theorem read_write {width n : Nat} (h : n < 256 ^ width) : read (write width n) = n := by
  rw [read_write_mod, Nat.mod_eq_of_lt h]

/-- Only the octets of the width matter. -/
theorem write_add_mul (width n k : Nat) : write width (k * 256 ^ width + n) = write width n := by
  induction width generalizing k with
  | zero => rfl
  | succ width ih =>
      have hpow : k * 256 ^ (width + 1) = k * 256 * 256 ^ width := by ring
      have hdiv : (k * 256 * 256 ^ width + n) / 256 ^ width = k * 256 + n / 256 ^ width := by
        rw [Nat.add_comm, Nat.add_mul_div_right _ _ (Nat.pow_pos (by decide)), Nat.add_comm]
      have hhead : UInt8.ofNat (k * 256 + n / 256 ^ width) = UInt8.ofNat (n / 256 ^ width) := by
        apply UInt8.toNat_inj.mp
        rw [UInt8.toNat_ofNat', UInt8.toNat_ofNat']
        omega
      rw [write, write, hpow, hdiv, hhead, ih]

theorem write_read (bytes : Bytes) : write bytes.length (read bytes) = bytes := by
  induction bytes with
  | nil => rfl
  | cons b bs ih =>
      have hdiv : (b.toNat * 256 ^ bs.length + read bs) / 256 ^ bs.length = b.toNat := by
        rw [Nat.add_comm, Nat.add_mul_div_right _ _ (Nat.pow_pos (by decide)),
          Nat.div_eq_of_lt (read_lt bs), Nat.zero_add]
      rw [List.length_cons, read_cons, write, hdiv, UInt8.ofNat_toNat, write_add_mul, ih]

end BigEndian

namespace Der

open BigEndian (write length_write)

/-- The fewest octets that hold a number. -/
def octetCount (n : Nat) : Nat := if n = 0 then 0 else n.log2 / 8 + 1

/-- A length below 128 is one octet; a longer one is preceded by how many
octets it takes. -/
def lengthOctets (n : Nat) : Bytes :=
  if n < 128 then [UInt8.ofNat n]
  else UInt8.ofNat (128 + octetCount n) :: write (octetCount n) n

def element (tag : UInt8) (content : Bytes) : Bytes :=
  tag :: (lengthOctets content.length ++ content)

/-- The octets of a non-negative `INTEGER`: one bit more than the number has,
for the sign. -/
def integerWidth (n : Nat) : Nat := if n = 0 then 1 else (n.log2 + 1) / 8 + 1

def integer (n : Nat) : Bytes := element 0x02 (write (integerWidth n) n)

/-- `Ecdsa-Sig-Value ::= SEQUENCE { r INTEGER, s INTEGER }`. -/
def ecdsaSigValue (r s : Nat) : Bytes := element 0x30 (integer r ++ integer s)

theorem length_element {tag : UInt8} {content : Bytes} (h : content.length < 128) :
    (element tag content).length = content.length + 2 := by
  rw [element, lengthOctets, if_pos h]
  simp

theorem integerWidth_le {n : Nat} (h : n < 2 ^ 256) : integerWidth n ≤ 33 := by
  unfold integerWidth
  split
  · decide
  · rename_i hn
    have hlog : n.log2 < 256 := (Nat.log2_lt hn).mpr h
    omega

/-- A signature of 256-bit numbers: six octets around the two integers. -/
theorem length_ecdsaSigValue {r s : Nat} (hr : r < 2 ^ 256) (hs : s < 2 ^ 256) :
    (ecdsaSigValue r s).length = integerWidth r + integerWidth s + 6 := by
  have hrw := integerWidth_le hr
  have hsw := integerWidth_le hs
  have hri : (integer r).length = integerWidth r + 2 := by
    rw [integer, length_element (by rw [length_write]; omega), length_write]
  have hsi : (integer s).length = integerWidth s + 2 := by
    rw [integer, length_element (by rw [length_write]; omega), length_write]
  have hcontent : (integer r ++ integer s).length = integerWidth r + integerWidth s + 4 := by
    rw [List.length_append, hri, hsi]
    omega
  rw [ecdsaSigValue, length_element (by omega), hcontent]

end Der
