import Mathlib.Algebra.Group.Nat.Defs
import ZeroSecret.Base.Json

/-!
# SHA-256

The hash function on octets, over `Nat` words kept below `2 ^ 32`, so that a
digest is evaluated by the kernel. The developments above take the hash as a
parameter; this is the value they are instantiated at on concrete inputs.
-/

namespace Sha256

def roundConstants : List Nat :=
  [0x428a2f98, 0x71374491, 0xb5c0fbcf, 0xe9b5dba5, 0x3956c25b, 0x59f111f1, 0x923f82a4,
    0xab1c5ed5, 0xd807aa98, 0x12835b01, 0x243185be, 0x550c7dc3, 0x72be5d74, 0x80deb1fe,
    0x9bdc06a7, 0xc19bf174, 0xe49b69c1, 0xefbe4786, 0x0fc19dc6, 0x240ca1cc, 0x2de92c6f,
    0x4a7484aa, 0x5cb0a9dc, 0x76f988da, 0x983e5152, 0xa831c66d, 0xb00327c8, 0xbf597fc7,
    0xc6e00bf3, 0xd5a79147, 0x06ca6351, 0x14292967, 0x27b70a85, 0x2e1b2138, 0x4d2c6dfc,
    0x53380d13, 0x650a7354, 0x766a0abb, 0x81c2c92e, 0x92722c85, 0xa2bfe8a1, 0xa81a664b,
    0xc24b8b70, 0xc76c51a3, 0xd192e819, 0xd6990624, 0xf40e3585, 0x106aa070, 0x19a4c116,
    0x1e376c08, 0x2748774c, 0x34b0bcb5, 0x391c0cb3, 0x4ed8aa4a, 0x5b9cca4f, 0x682e6ff3,
    0x748f82ee, 0x78a5636f, 0x84c87814, 0x8cc70208, 0x90befffa, 0xa4506ceb, 0xbef9a3f7,
    0xc67178f2]

structure State where
  a : Nat
  b : Nat
  c : Nat
  d : Nat
  e : Nat
  f : Nat
  g : Nat
  h : Nat

def initialState : State :=
  ⟨0x6a09e667, 0xbb67ae85, 0x3c6ef372, 0xa54ff53a, 0x510e527f, 0x9b05688c, 0x1f83d9ab,
    0x5be0cd19⟩

def word (n : Nat) : Nat := n % 2 ^ 32

def rotr (k x : Nat) : Nat := (x >>> k) ||| word (x <<< (32 - k))

def choose (x y z : Nat) : Nat := (x &&& y) ^^^ ((x ^^^ 0xffffffff) &&& z)
def majority (x y z : Nat) : Nat := (x &&& y) ^^^ (x &&& z) ^^^ (y &&& z)
def sumA (x : Nat) : Nat := rotr 2 x ^^^ rotr 13 x ^^^ rotr 22 x
def sumE (x : Nat) : Nat := rotr 6 x ^^^ rotr 11 x ^^^ rotr 25 x
def sigma0 (x : Nat) : Nat := rotr 7 x ^^^ rotr 18 x ^^^ (x >>> 3)
def sigma1 (x : Nat) : Nat := rotr 17 x ^^^ rotr 19 x ^^^ (x >>> 10)

def round (s : State) (k w : Nat) : State :=
  let t1 := s.h + sumE s.e + choose s.e s.f s.g + k + w
  let t2 := sumA s.a + majority s.a s.b s.c
  ⟨word (t1 + t2), s.a, s.b, s.c, word (s.d + t1), s.e, s.f, s.g⟩

/-- The rounds. `window` holds the next sixteen words of the schedule. -/
def rounds : List Nat → List Nat → State → State
  | k :: ks, w :: window, s =>
      let next := word (sigma1 (window.getD 13 0) + window.getD 8 0 +
        sigma0 (window.getD 0 0) + w)
      rounds ks (window ++ [next]) (round s k w)
  | _, _, s => s

def State.add (s t : State) : State :=
  ⟨word (s.a + t.a), word (s.b + t.b), word (s.c + t.c), word (s.d + t.d),
    word (s.e + t.e), word (s.f + t.f), word (s.g + t.g), word (s.h + t.h)⟩

def compress (s : State) (block : List Nat) : State :=
  s.add (rounds roundConstants block s)

def words : Bytes → List Nat
  | b0 :: b1 :: b2 :: b3 :: bs =>
      (((b0.toNat * 256 + b1.toNat) * 256 + b2.toNat) * 256 + b3.toNat) :: words bs
  | _ => []

/-- `count` octets, most significant first. -/
def bigEndian : (count n : Nat) → Bytes
  | 0, _ => []
  | count + 1, n => UInt8.ofNat (n / 256 ^ count) :: bigEndian count n

/-- The message, a one bit, zeros up to a block, the length in bits. -/
def pad (m : Bytes) : Bytes :=
  m ++ 0x80 :: (List.replicate ((119 - m.length % 64) % 64) 0 ++ bigEndian 8 (8 * m.length))

def blocks : (fuel : Nat) → List Nat → State → State
  | 0, _, s => s
  | fuel + 1, ws, s => blocks fuel (ws.drop 16) (compress s (ws.take 16))

def finalState (m : Bytes) : State :=
  let padded := pad m
  blocks (padded.length / 64) (words padded) initialState

def State.octets (s : State) : Bytes :=
  bigEndian 4 s.a ++ bigEndian 4 s.b ++ bigEndian 4 s.c ++ bigEndian 4 s.d ++
    bigEndian 4 s.e ++ bigEndian 4 s.f ++ bigEndian 4 s.g ++ bigEndian 4 s.h

theorem octets_length (s : State) : s.octets.length = 32 := rfl

def digest (m : Bytes) : { b : Bytes // b.length = 32 } :=
  ⟨(finalState m).octets, octets_length _⟩

/-- The `abc` vector of the standard. -/
example : (digest [0x61, 0x62, 0x63]).val =
    [0xba, 0x78, 0x16, 0xbf, 0x8f, 0x01, 0xcf, 0xea, 0x41, 0x41, 0x40, 0xde, 0x5d, 0xae,
      0x22, 0x23, 0xb0, 0x03, 0x61, 0xa3, 0x96, 0x17, 0x7a, 0x9c, 0xb4, 0x10, 0xff, 0x61,
      0xf2, 0x00, 0x15, 0xad] := by
  decide +kernel

/-! ## Evaluated strictly

The same function for the kernel: every word is a literal before it is used,
and the operations are those of `Nat` themselves. -/

/-- `k n`, with `n` evaluated first. -/
def force {α : Type} (n : Nat) (k : Nat → α) : α :=
  Nat.rec (k 0) (fun m _ => k (Nat.succ m)) n

theorem force_eq {α : Type} (n : Nat) (k : Nat → α) : force n k = k n := by
  cases n with
  | zero => rfl
  | succ m => rfl

namespace Strict

def rotr (k x : Nat) : Nat :=
  Nat.lor (Nat.shiftRight x k) (Nat.mod (Nat.shiftLeft x (Nat.sub 32 k)) 4294967296)

def choose (x y z : Nat) : Nat := Nat.xor (Nat.land x y) (Nat.land (Nat.xor x 4294967295) z)
def majority (x y z : Nat) : Nat := Nat.xor (Nat.xor (Nat.land x y) (Nat.land x z)) (Nat.land y z)
def sumA (x : Nat) : Nat := Nat.xor (Nat.xor (rotr 2 x) (rotr 13 x)) (rotr 22 x)
def sumE (x : Nat) : Nat := Nat.xor (Nat.xor (rotr 6 x) (rotr 11 x)) (rotr 25 x)
def sigma0 (x : Nat) : Nat := Nat.xor (Nat.xor (rotr 7 x) (rotr 18 x)) (Nat.shiftRight x 3)
def sigma1 (x : Nat) : Nat := Nat.xor (Nat.xor (rotr 17 x) (rotr 19 x)) (Nat.shiftRight x 10)

/-- The rounds, with the window and the state word by word. -/
def rounds : List Nat →
    (w0 w1 w2 w3 w4 w5 w6 w7 w8 w9 w10 w11 w12 w13 w14 w15
      a b c d e f g h : Nat) → State
  | [], _, _, _, _, _, _, _, _, _, _, _, _, _, _, _, _, a, b, c, d, e, f, g, h =>
      ⟨a, b, c, d, e, f, g, h⟩
  | k :: ks, w0, w1, w2, w3, w4, w5, w6, w7, w8, w9, w10, w11,
      w12, w13, w14, w15, a, b, c, d, e, f, g, h =>
      force (Nat.mod (Nat.add (Nat.add (Nat.add (sigma1 w14) w9) (sigma0 w1)) w0) 4294967296)
        fun next =>
      force (Nat.add (Nat.add (Nat.add (Nat.add h (sumE e)) (choose e f g)) k) w0) fun t1 =>
      force (Nat.mod (Nat.add t1 (Nat.add (sumA a) (majority a b c))) 4294967296) fun a' =>
      force (Nat.mod (Nat.add d t1) 4294967296) fun e' =>
      rounds ks w1 w2 w3 w4 w5 w6 w7 w8 w9 w10 w11 w12 w13 w14 w15 next
        a' a b c e' e f g

theorem rounds_eq (ks : List Nat) :
    ∀ w0 w1 w2 w3 w4 w5 w6 w7 w8 w9 w10 w11 w12 w13 w14 w15
      a b c d e f g h : Nat,
      rounds ks w0 w1 w2 w3 w4 w5 w6 w7 w8 w9 w10 w11 w12 w13 w14 w15
          a b c d e f g h =
        Sha256.rounds ks [w0, w1, w2, w3, w4, w5, w6, w7, w8, w9, w10, w11,
          w12, w13, w14, w15] ⟨a, b, c, d, e, f, g, h⟩ := by
  induction ks with
  | nil =>
      intros
      rfl
  | cons k ks ih =>
      intros
      rw [rounds, force_eq, force_eq, force_eq, force_eq, ih]
      rfl

def compress (s : State) : List Nat → State
  | [w0, w1, w2, w3, w4, w5, w6, w7, w8, w9, w10, w11, w12, w13, w14, w15] =>
      s.add (rounds roundConstants w0 w1 w2 w3 w4 w5 w6 w7 w8
        w9 w10 w11 w12 w13 w14 w15 s.a s.b s.c s.d s.e s.f s.g s.h)
  | block => Sha256.compress s block

theorem compress_eq (s : State) (block : List Nat) : compress s block = Sha256.compress s block := by
  unfold compress
  split
  · rw [rounds_eq]
    rfl
  · rfl

def blocks : (fuel : Nat) → List Nat → State → State
  | 0, _, s => s
  | fuel + 1, ws, s => blocks fuel (ws.drop 16) (compress s (ws.take 16))

theorem blocks_eq (fuel : Nat) (ws : List Nat) (s : State) :
    blocks fuel ws s = Sha256.blocks fuel ws s := by
  induction fuel generalizing ws s with
  | zero => rfl
  | succ fuel ih => rw [blocks, ih, compress_eq, Sha256.blocks]

def digest (m : Bytes) : { b : Bytes // b.length = 32 } :=
  ⟨(blocks ((pad m).length / 64) (words (pad m)) initialState).octets, octets_length _⟩

theorem digest_eq : Sha256.digest = digest := by
  funext m
  rw [digest, Sha256.digest, finalState]
  simp only [blocks_eq]

end Strict

end Sha256
