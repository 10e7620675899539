import ZeroSecret.Base.Sha256

/-!
# ECDSA over P-256

Verification of a raw `r‖s` signature under an uncompressed public key, the
one curve and the one encoding the suites use. Points are in Jacobian
coordinates over `Nat`, so that a verification is evaluated by the kernel.
-/

namespace P256

def fieldPrime : Nat := 0xffffffff00000001000000000000000000000000ffffffffffffffffffffffff
def groupOrder : Nat := 0xffffffff00000000ffffffffffffffffbce6faada7179e84f3b9cac2fc632551
def curveB : Nat := 0x5ac635d8aa3a93e7b3ebbd55769886bc651d06b0cc53b0f63bce3c3e27d2604b
def baseX : Nat := 0x6b17d1f2e12c4247f8bce6e563a440f277037d812deb33a0f4a13945d898c296
def baseY : Nat := 0x4fe342e2fe1a7f9b8ee7eb4a7c0f9e162bce33576b315ececbb6406837bf51f5

/-- `z = 0` is the point at infinity. -/
structure Point where
  x : Nat
  y : Nat
  z : Nat

def mulMod (a b : Nat) : Nat := a * b % fieldPrime
def subMod (a b : Nat) : Nat := (a + (fieldPrime - b)) % fieldPrime

def double (p : Point) : Point :=
  let delta := mulMod p.z p.z
  let gamma := mulMod p.y p.y
  let beta := mulMod p.x gamma
  let alpha := mulMod 3 (mulMod (subMod p.x delta) (p.x + delta))
  let x := subMod (mulMod alpha alpha) (mulMod 8 beta)
  ⟨x,
    subMod (mulMod alpha (subMod (mulMod 4 beta) x)) (mulMod 8 (mulMod gamma gamma)),
    mulMod 2 (mulMod p.y p.z)⟩

def add (p q : Point) : Point :=
  if p.z = 0 then q
  else if q.z = 0 then p
  else
    let zp := mulMod p.z p.z
    let zq := mulMod q.z q.z
    let u := mulMod p.x zq
    let v := mulMod q.x zp
    let s := mulMod p.y (mulMod q.z zq)
    let t := mulMod q.y (mulMod p.z zp)
    if u = v then
      if s = t then double p else ⟨1, 1, 0⟩
    else
      let h := subMod v u
      let r := subMod t s
      let hh := mulMod h h
      let hhh := mulMod h hh
      let w := mulMod u hh
      let x := subMod (subMod (mulMod r r) hhh) (mulMod 2 w)
      ⟨x, subMod (mulMod r (subMod w x)) (mulMod s hhh), mulMod h (mulMod p.z q.z)⟩

/-- Double and add, from the bit `2 ^ (bits - 1)` down. -/
def scale : (bits : Nat) → (k : Nat) → Point → Point → Point
  | 0, _, _, acc => acc
  | bits + 1, k, p, acc =>
      let acc := double acc
      scale bits k p (if k.testBit bits then add acc p else acc)

def scalarMul (k : Nat) (p : Point) : Point := scale 256 k p ⟨1, 1, 0⟩

def powMod : (bits : Nat) → (base k acc : Nat) → Nat
  | 0, _, _, acc => acc
  | bits + 1, base, k, acc =>
      let acc := acc * acc % groupOrder
      powMod bits base k (if k.testBit bits then acc * base % groupOrder else acc)

/-- Inverse modulo the group order, which is prime. -/
def inverse (a : Nat) : Nat := powMod 256 a (groupOrder - 2) 1

def ofBytes (bs : Bytes) : Nat := bs.foldl (fun n b => n * 256 + b.toNat) 0

def onCurve (x y : Nat) : Bool :=
  x < fieldPrime && y < fieldPrime &&
    mulMod y y == (mulMod x (mulMod x x) + mulMod (fieldPrime - 3) x + curveB) % fieldPrime

/-- `x(R) mod n = r`, without leaving Jacobian coordinates. -/
def xMatches (p : Point) (r : Nat) : Bool :=
  p.z != 0 &&
    (let zz := mulMod p.z p.z
     p.x == mulMod r zz ||
      (r + groupOrder < fieldPrime && p.x == mulMod (r + groupOrder) zz))

def verifyDigest (publicKey digest signature : Bytes) : Bool :=
  let x := ofBytes ((publicKey.drop 1).take 32)
  let y := ofBytes (publicKey.drop 33)
  let r := ofBytes (signature.take 32)
  let s := ofBytes (signature.drop 32)
  publicKey.length == 65 && publicKey.head? == some 0x04 && onCurve x y &&
  signature.length == 64 && 0 < r && r < groupOrder && 0 < s && s < groupOrder &&
    (let w := inverse s
     let u := ofBytes digest * w % groupOrder
     let v := r * w % groupOrder
     xMatches (add (scalarMul u ⟨baseX, baseY, 1⟩) (scalarMul v ⟨x, y, 1⟩)) r)

/-- Public key, message, signature. -/
def verifySha256 (publicKey message signature : Bytes) : Bool :=
  verifyDigest publicKey (Sha256.digest message).val signature

theorem verifySha256_eq (publicKey message signature : Bytes) :
    verifySha256 publicKey message signature =
      verifyDigest publicKey (Sha256.Strict.digest message).val signature := by
  rw [verifySha256, Sha256.Strict.digest_eq]

example : verifySha256
    [0x04, 0x60, 0xfe, 0xd4, 0xba, 0x25, 0x5a, 0x9d, 0x31, 0xc9, 0x61, 0xeb, 0x74, 0xc6,
      0x35, 0x6d, 0x68, 0xc0, 0x49, 0xb8, 0x92, 0x3b, 0x61, 0xfa, 0x6c, 0xe6, 0x69, 0x62,
      0x2e, 0x60, 0xf2, 0x9f, 0xb6, 0x79, 0x03, 0xfe, 0x10, 0x08, 0xb8, 0xbc, 0x99, 0xa4,
      0x1a, 0xe9, 0xe9, 0x56, 0x28, 0xbc, 0x64, 0xf2, 0xf1, 0xb2, 0x0c, 0x2d, 0x7e, 0x9f,
      0x51, 0x77, 0xa3, 0xc2, 0x94, 0xd4, 0x46, 0x22, 0x99]
    [0x73, 0x61, 0x6d, 0x70, 0x6c, 0x65]
    [0xef, 0xd4, 0x8b, 0x2a, 0xac, 0xb6, 0xa8, 0xfd, 0x11, 0x40, 0xdd, 0x9c, 0xd4, 0x5e,
      0x81, 0xd6, 0x9d, 0x2c, 0x87, 0x7b, 0x56, 0xaa, 0xf9, 0x91, 0xc3, 0x4d, 0x0e, 0xa8,
      0x4e, 0xaf, 0x37, 0x16, 0xf7, 0xcb, 0x1c, 0x94, 0x2d, 0x65, 0x7c, 0x41, 0xd4, 0x36,
      0xc7, 0xa1, 0xb6, 0xe2, 0x9f, 0x65, 0xf3, 0xe9, 0x00, 0xdb, 0xb9, 0xaf, 0xf4, 0x06,
      0x4d, 0xc4, 0xab, 0x2f, 0x84, 0x3a, 0xcd, 0xa8] = true := by
  decide +kernel

end P256
