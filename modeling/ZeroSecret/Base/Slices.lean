import Mathlib.Algebra.Group.Nat.Defs
import ZeroSecret.Base.Json

/-!
# Octets by index and by range

Reads of a slice as Rust makes them: `none` is the panic on an index or a
range outside of it, on a copy between unequal lengths, and on an overflow of
`usize`. A function written with them comes back exactly when it is `some`.
-/

namespace Slice

/-- `data[i]`. -/
def index (data : Bytes) (i : Nat) : Option UInt8 := data[i]?

/-- `data[start..stop]`. -/
def range (data : Bytes) (start stop : Nat) : Option Bytes :=
  if start ≤ stop ∧ stop ≤ data.length then some ((data.drop start).take (stop - start)) else none

/-- `copy_from_slice` into an array. -/
def copyFromSlice (length : Nat) (source : Bytes) : Option Bytes :=
  if source.length = length then some source else none

/-- `a + b` on `usize`. -/
def add (a b : Nat) : Option Nat := if a + b < 2 ^ 64 then some (a + b) else none

/-- `a << 8` on `usize`, no bit lost. -/
def shiftLeft8 (a : Nat) : Option Nat := if a <<< 8 < 2 ^ 64 then some (a <<< 8) else none

theorem index_of_lt {data : Bytes} {i : Nat} (h : i < data.length) :
    index data i = some data[i] :=
  List.getElem?_eq_getElem h

theorem range_of_le {data : Bytes} {start stop : Nat} (h : start ≤ stop)
    (h' : stop ≤ data.length) :
    range data start stop = some ((data.drop start).take (stop - start)) :=
  if_pos ⟨h, h'⟩

/-- From the beginning. -/
theorem range_zero {data : Bytes} {stop : Nat} (h : stop ≤ data.length) :
    range data 0 stop = some (data.take stop) :=
  range_of_le (Nat.zero_le stop) h

/-- Up to the end. -/
theorem range_length {data : Bytes} {start : Nat} (h : start ≤ data.length) :
    range data start data.length = some (data.drop start) := by
  rw [range_of_le h (Nat.le_refl _), List.take_of_length_le (Nat.le_of_eq List.length_drop)]

theorem copyFromSlice_of_length {length : Nat} {source : Bytes} (h : source.length = length) :
    copyFromSlice length source = some source :=
  if_pos h

theorem add_of_lt {a b : Nat} (h : a + b < 2 ^ 64) : add a b = some (a + b) := if_pos h

theorem shiftLeft8_of_lt {a : Nat} (h : a < 2 ^ 56) : shiftLeft8 a = some (a <<< 8) := by
  refine if_pos ?_
  rw [Nat.shiftLeft_eq]
  omega

end Slice
