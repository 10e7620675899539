import ZeroSecret.Base.Calendar
import ZeroSecret.Base.JsonFields
import ZeroSecret.Base.P256

/-!
# `zs-crypto/src/common.rs`

Validated strings, timestamps and identifiers, the hexadecimal codec and the
canonical JSON form that every signature and binding of the workspace goes
through. A validated value carries its validity, so a document built from
validated fields needs no further check.

SHA-256 and the ECDSA verifier belong to `aws-lc-rs`; they enter as
`Primitives`.
-/

namespace ZeroSecret.Crypto

open Json (utf8)

/-- Rust's `as_bytes`. -/
def octets (s : String) : Bytes := Json.octetsOf s

theorem octets_eq_utf8 (s : String) : octets s = utf8 s.toList := Json.octetsOf_eq_utf8 s

/-- `[u8; 32]`. -/
abbrev Digest : Type := { b : Bytes // b.length = 32 }

/-- What the workspace calls of `aws-lc-rs`. -/
structure Primitives where
  sha256 : Bytes → Digest
  /-- `ECDSA_P256_SHA256_FIXED`: public key, message, raw `r‖s` signature. -/
  ecdsaP256Sha256Fixed : Bytes → Bytes → Bytes → Bool

/-- The functions of that name; concrete inputs are evaluated at these. -/
def Primitives.standard : Primitives where
  sha256 := Sha256.digest
  ecdsaP256Sha256Fixed := P256.verifySha256

theorem Primitives.standard_ecdsa (publicKey message signature : Bytes) :
    Primitives.standard.ecdsaP256Sha256Fixed publicKey message signature =
      P256.verifyDigest publicKey (Primitives.standard.sha256 message).val signature := rfl

/-- The same functions, as the kernel evaluates them. -/
def Primitives.evaluated : Primitives where
  sha256 := Sha256.Strict.digest
  ecdsaP256Sha256Fixed publicKey message signature :=
    P256.verifyDigest publicKey (Sha256.Strict.digest message).val signature

theorem Primitives.standard_eq_evaluated : Primitives.standard = Primitives.evaluated := by
  have hverify : P256.verifySha256 = Primitives.evaluated.ecdsaP256Sha256Fixed := by
    funext publicKey message signature
    exact P256.verifySha256_eq publicKey message signature
  rw [Primitives.standard, Sha256.Strict.digest_eq, hverify]
  rfl

structure FieldError where
  field : String
deriving DecidableEq

def FieldError.toString (e : FieldError) : String := "champ invalide : '" ++ e.field ++ "'"

/-! ## Validated strings -/

/-- `(0x20..=0x7E).contains(&b) && b != b'"' && b != b'\\'`. -/
def isPrintable (b : UInt8) : Bool :=
  0x20 ≤ b && b ≤ 0x7E && b != 0x22 && b != 0x5C

/-- `bounded_ascii_string!`: the field name is an index, so that two fields
of one length are still two types. -/
structure BoundedAscii (maxLen : Nat) (field : String) where
  val : String
  nonempty : val ≠ ""
  len_le : (octets val).length ≤ maxLen
  printable : ∀ b ∈ octets val, isPrintable b = true

/-- The predicate `BoundedAscii.new` decides. -/
def BoundedAsciiOk (maxLen : Nat) (value : String) : Prop :=
  value ≠ "" ∧ (octets value).length ≤ maxLen ∧ ∀ b ∈ octets value, isPrintable b = true

instance (maxLen : Nat) (value : String) : Decidable (BoundedAsciiOk maxLen value) :=
  inferInstanceAs (Decidable (_ ∧ _ ∧ _))

def BoundedAscii.new (maxLen : Nat) (field : String) (value : String) :
    Except FieldError (BoundedAscii maxLen field) :=
  if h : value = "" ∨ maxLen < (octets value).length then .error ⟨field⟩
  else if hp : ∀ b ∈ octets value, isPrintable b = true then
    .ok ⟨value, fun e => h (Or.inl e), Nat.le_of_not_lt fun e => h (Or.inr e), hp⟩
  else .error ⟨field⟩

theorem BoundedAscii.ok (maxLen : Nat) (field : String) (t : BoundedAscii maxLen field) :
    BoundedAsciiOk maxLen t.val :=
  ⟨t.nonempty, t.len_le, t.printable⟩

/-- `new` accepts exactly the admissible values, and keeps them. -/
theorem BoundedAscii.new_eq_ok {maxLen : Nat} {field value : String}
    (h : BoundedAsciiOk maxLen value) :
    ∃ t, BoundedAscii.new maxLen field value = .ok t ∧ t.val = value := by
  obtain ⟨hne, hlen, hp⟩ := h
  have h1 : ¬ (value = "" ∨ maxLen < (octets value).length) := by
    rintro (e | e)
    · exact hne e
    · omega
  exact ⟨⟨value, hne, hlen, hp⟩, by rw [BoundedAscii.new, dif_neg h1, dif_pos hp], rfl⟩

theorem BoundedAscii.new_eq_error {maxLen : Nat} {field value : String}
    (h : ¬ BoundedAsciiOk maxLen value) :
    BoundedAscii.new maxLen field value = .error ⟨field⟩ := by
  rw [BoundedAscii.new]
  split
  · rfl
  · rename_i h1
    split
    · rename_i hp
      exact absurd ⟨fun e => h1 (Or.inl e), Nat.le_of_not_lt fun e => h1 (Or.inr e), hp⟩ h
    · rfl

/-- A constructed value holds the text it was given. -/
theorem BoundedAscii.val_of_new {maxLen : Nat} {field value : String}
    {t : BoundedAscii maxLen field} (h : BoundedAscii.new maxLen field value = .ok t) :
    t.val = value := by
  by_cases hok : BoundedAsciiOk maxLen value
  · obtain ⟨t', ht', hv⟩ := @BoundedAscii.new_eq_ok maxLen field value hok
    rw [ht'] at h
    rw [← Except.ok.inj h, hv]
  · rw [BoundedAscii.new_eq_error hok] at h
    cases h

/-! ### Fields of `identity_assertion.rs` that other suites reuse -/

inductive AssuranceLevel where
  | aal1
  | aal2
  | aal3
deriving DecidableEq

def AssuranceLevel.asStr : AssuranceLevel → String
  | .aal1 => "AAL1"
  | .aal2 => "AAL2"
  | .aal3 => "AAL3"

abbrev SubjectId : Type := BoundedAscii 256 "subject_id"
abbrev AuthMethod : Type := BoundedAscii 64 "auth_method"

def SubjectId.new : String → Except FieldError SubjectId := BoundedAscii.new 256 "subject_id"
def AuthMethod.new : String → Except FieldError AuthMethod := BoundedAscii.new 64 "auth_method"

/-! ## Timestamps and identifiers -/

/-- Positions of `AAAA-MM-JJThh:mm:ssZ` that hold a separator. -/
def timestampSeparator : Nat → Option UInt8
  | 4 => some 0x2D
  | 7 => some 0x2D
  | 10 => some 0x54
  | 13 => some 0x3A
  | 16 => some 0x3A
  | 19 => some 0x5A
  | _ => none

def isAsciiDigit (b : UInt8) : Bool := 0x30 ≤ b && b ≤ 0x39

def isAsciiHexdigit (b : UInt8) : Bool :=
  isAsciiDigit b || (0x41 ≤ b && b ≤ 0x46) || (0x61 ≤ b && b ≤ 0x66)

/-- Each position holds its separator, or an octet the class admits. -/
def shapeOk (separator : Nat → Option UInt8) (cls : UInt8 → Bool) :
    Nat → Bytes → Bool
  | _, [] => true
  | i, b :: bs =>
      (match separator i with
        | some sep => b == sep
        | none => cls b) && shapeOk separator cls (i + 1) bs

def timestampValid (bytes : Bytes) : Bool :=
  bytes.length == 20 && shapeOk timestampSeparator isAsciiDigit 0 bytes

/-- RFC 3339 UTC, no fraction, structurally valid. -/
structure Timestamp where
  val : String
  valid : timestampValid (octets val) = true

def Timestamp.new (value : String) : Except FieldError Timestamp :=
  if h : timestampValid (octets value) = true then .ok ⟨value, h⟩
  else .error ⟨"timestamp"⟩

theorem Timestamp.new_eq_ok {value : String} (h : timestampValid (octets value) = true) :
    Timestamp.new value = .ok ⟨value, h⟩ := dif_pos h

def uuidSeparator : Nat → Option UInt8
  | 8 => some 0x2D
  | 13 => some 0x2D
  | 18 => some 0x2D
  | 23 => some 0x2D
  | _ => none

def uuidValid (requireV7 : Bool) (bytes : Bytes) : Bool :=
  bytes.length == 36 && shapeOk uuidSeparator isAsciiHexdigit 0 bytes &&
    (!requireV7 || bytes[14]? == some 0x37)

/-- `uuid_string!`. -/
structure UuidString (field : String) (requireV7 : Bool) where
  val : String
  valid : uuidValid requireV7 (octets val) = true

def UuidString.new (field : String) (requireV7 : Bool) (value : String) :
    Except FieldError (UuidString field requireV7) :=
  if h : uuidValid requireV7 (octets value) = true then .ok ⟨value, h⟩
  else .error ⟨field⟩

abbrev EventId : Type := UuidString "event_id" true
abbrev RequestId : Type := UuidString "decision.request_id" false

def EventId.new : String → Except FieldError EventId := UuidString.new "event_id" true
def RequestId.new : String → Except FieldError RequestId :=
  UuidString.new "decision.request_id" false

/-! ## Hexadecimal -/

def hexByte (b : UInt8) : List Char :=
  [(b.toNat / 16).digitChar, (b.toNat % 16).digitChar]

def hexEncode (bytes : Bytes) : String := String.ofList (bytes.flatMap hexByte)

def hexDecodeChars : List Char → Option Bytes
  | [] => some []
  | [_] => none
  | a :: b :: cs => do
      let hi ← Json.hexVal a
      let lo ← Json.hexVal b
      let bs ← hexDecodeChars cs
      some (UInt8.ofNat (hi * 16 + lo) :: bs)

/-- Upper and lower case digits; an odd length or a foreign character refuses. -/
def hexDecode (s : String) : Option Bytes := hexDecodeChars (Json.chars s)

theorem hexDecode_hexEncode (bytes : Bytes) : hexDecode (hexEncode bytes) = some bytes := by
  rw [hexDecode, hexEncode, Json.chars_eq_toList, String.toList_ofList]
  induction bytes with
  | nil => rfl
  | cons b bs ih =>
      have hb := b.toNat_lt
      have hhi := Json.hexVal_digitChar (d := b.toNat / 16) (by omega)
      have hlo := Json.hexVal_digitChar (d := b.toNat % 16) (by omega)
      have hval : UInt8.ofNat (b.toNat / 16 * 16 + b.toNat % 16) = b := by
        rw [show b.toNat / 16 * 16 + b.toNat % 16 = b.toNat by omega, UInt8.ofNat_toNat]
      rw [List.flatMap_cons, hexByte, List.cons_append, List.cons_append, List.nil_append,
        hexDecodeChars, hhi, hlo, ih]
      simp only [Option.bind_eq_bind, Option.bind_some, hval]

theorem hexEncode_injective : Function.Injective hexEncode := by
  intro a b h
  have hd := congrArg hexDecode h
  rw [hexDecode_hexEncode, hexDecode_hexEncode] at hd
  exact Option.some.inj hd

def keyIdFromPublicKey (P : Primitives) (sec1Uncompressed : Bytes) : String :=
  hexEncode ((P.sha256 sec1Uncompressed).val.take 8)

/-! ## Canonical JSON -/

/-- Byte order of the keys. -/
def keyLe (a b : String × Json) : Prop := octets a.1 ≤ octets b.1

instance : DecidableRel keyLe := fun a b =>
  inferInstanceAs (Decidable (octets a.1 ≤ octets b.1))

mutual
/-- Object members in byte order of their keys, at every depth; arrays keep
their order. -/
def sortKeysRecursively : Json → Json
  | .obj kvs => .obj ((sortMembers kvs).insertionSort keyLe)
  | .arr xs => .arr (sortItems xs)
  | .str s => .str s
  | .num n => .num n
  | .bool b => .bool b
  | .null => .null
def sortItems : List Json → List Json
  | [] => []
  | x :: xs => sortKeysRecursively x :: sortItems xs
def sortMembers : List (String × Json) → List (String × Json)
  | [] => []
  | (k, v) :: kvs => (k, sortKeysRecursively v) :: sortMembers kvs
end

def canonicalBytes (value : Json) : Bytes := (sortKeysRecursively value).toVec

theorem sortItems_eq_map : ∀ xs : List Json, sortItems xs = xs.map sortKeysRecursively
  | [] => rfl
  | x :: xs => by rw [sortItems, sortItems_eq_map xs, List.map_cons]

theorem sortMembers_eq_map : ∀ kvs : List (String × Json),
    sortMembers kvs = kvs.map fun m => (m.1, sortKeysRecursively m.2)
  | [] => rfl
  | (k, v) :: kvs => by rw [sortMembers, sortMembers_eq_map kvs, List.map_cons]

theorem sortMembers_keys (kvs : List (String × Json)) :
    (sortMembers kvs).map Prod.fst = kvs.map Prod.fst := by
  rw [sortMembers_eq_map, List.map_map]
  rfl

theorem sorted_perm (kvs : List (String × Json)) :
    ((sortMembers kvs).insertionSort keyLe).Perm (sortMembers kvs) :=
  List.perm_insertionSort keyLe _

theorem sorted_keys_perm (kvs : List (String × Json)) :
    (((sortMembers kvs).insertionSort keyLe).map Prod.fst).Perm (kvs.map Prod.fst) := by
  have h := (sorted_perm kvs).map Prod.fst
  rwa [sortMembers_keys] at h

@[simp] theorem sortKeys_str (s : String) : sortKeysRecursively (.str s) = .str s := rfl

@[simp] theorem sortKeys_num (n : Int) : sortKeysRecursively (.num n) = .num n := rfl

@[simp] theorem sortKeys_bool (b : Bool) : sortKeysRecursively (.bool b) = .bool b := rfl

@[simp] theorem sortKeys_null : sortKeysRecursively .null = .null := rfl

@[simp] theorem sortKeys_arr (xs : List Json) :
    sortKeysRecursively (.arr xs) = .arr (xs.map sortKeysRecursively) := by
  rw [sortKeysRecursively, sortItems_eq_map]

theorem sortKeys_obj (kvs : List (String × Json)) :
    sortKeysRecursively (.obj kvs) = .obj ((sortMembers kvs).insertionSort keyLe) := rfl

theorem sortKeys_obj_ne_null (kvs : List (String × Json)) :
    sortKeysRecursively (.obj kvs) ≠ .null := by
  rw [sortKeys_obj]
  exact Json.noConfusion

/-- A list of texts is canonical as it is, and can be read back. -/
theorem map_sortKeys_str_injective :
    Function.Injective (List.map (sortKeysRecursively ∘ Json.str)) := by
  refine List.map_injective_iff.mpr fun a b h => ?_
  rw [Function.comp_apply, Function.comp_apply, sortKeys_str, sortKeys_str] at h
  exact Json.str.inj h

/-- **A member of a canonical object is the canonical member**, wherever the
sort put it. -/
theorem lookup_sorted {kvs : List (String × Json)} (hn : (kvs.map Prod.fst).Nodup)
    (k : String) :
    ((sortMembers kvs).insertionSort keyLe).lookup k =
      (kvs.lookup k).map sortKeysRecursively := by
  have hns : (((sortMembers kvs).insertionSort keyLe).map Prod.fst).Nodup :=
    (sorted_keys_perm kvs).nodup_iff.mpr hn
  rw [Json.lookup_perm (sorted_perm kvs) hns, sortMembers_eq_map, Json.lookup_map_snd]

theorem fieldTable_sorted {names : List String} {kvs : List (String × Json)}
    (hn : (kvs.map Prod.fst).Nodup) (hsub : ∀ k ∈ kvs.map Prod.fst, k ∈ names) :
    Json.fieldTable names (sortKeysRecursively (.obj kvs)) =
      some fun k => (kvs.lookup k).map sortKeysRecursively := by
  have hp := sorted_keys_perm kvs
  rw [sortKeys_obj, Json.fieldTable_obj (hp.nodup_iff.mpr hn)
    (fun k hk => hsub k (hp.mem_iff.mp hk))]
  congr 1
  funext k
  exact lookup_sorted hn k

/-- Canonical octets determine the canonical value. -/
theorem canonicalBytes_inj {v w : Json} (h : canonicalBytes v = canonicalBytes w) :
    sortKeysRecursively v = sortKeysRecursively w :=
  Json.toVec_injective h

/-- Equal canonical objects agree on every member. -/
theorem lookup_eq_of_sortKeys_eq {kvs kvs' : List (String × Json)}
    (hn : (kvs.map Prod.fst).Nodup) (hn' : (kvs'.map Prod.fst).Nodup)
    (h : sortKeysRecursively (.obj kvs) = sortKeysRecursively (.obj kvs')) (k : String) :
    (kvs.lookup k).map sortKeysRecursively = (kvs'.lookup k).map sortKeysRecursively := by
  rw [sortKeys_obj, sortKeys_obj, Json.obj.injEq] at h
  rw [← lookup_sorted hn, ← lookup_sorted hn', h]

/-! ## Canonical sizes -/

/-- Octets of one member of a canonical object. -/
def canonicalMemberSize (m : String × Json) : Nat :=
  (utf8 (Json.writeStr m.1)).length + 1 + (canonicalBytes m.2).length

theorem canonicalBytes_obj_size {kvs : List (String × Json)} (h : kvs ≠ []) :
    (canonicalBytes (.obj kvs)).length =
      1 + (kvs.map canonicalMemberSize).sum + kvs.length := by
  have hp := sorted_perm kvs
  have hne : (sortMembers kvs).insertionSort keyLe ≠ [] := by
    intro e
    have hl := hp.length_eq
    rw [e, sortMembers_eq_map, List.length_map, List.length_nil] at hl
    exact h (List.eq_nil_of_length_eq_zero hl.symm)
  have hmap : (sortMembers kvs).map Json.memberSize = kvs.map canonicalMemberSize := by
    rw [sortMembers_eq_map, List.map_map]
    rfl
  rw [canonicalBytes, sortKeys_obj, Json.toVec_obj_size hne, (hp.map _).sum_eq, hmap,
    hp.length_eq, sortMembers_eq_map, List.length_map]

/-- Adding a member to a non-empty object costs the member and one comma. -/
theorem canonicalBytes_snoc_size {kvs : List (String × Json)} (h : kvs ≠ [])
    (m : String × Json) :
    (canonicalBytes (.obj (kvs ++ [m]))).length =
      (canonicalBytes (.obj kvs)).length + 1 + canonicalMemberSize m := by
  rw [canonicalBytes_obj_size h, canonicalBytes_obj_size (by simp)]
  simp only [List.map_append, List.map_cons, List.map_nil, List.sum_append,
    List.sum_cons, List.sum_nil, List.length_append, List.length_cons, List.length_nil]
  omega

/-! ### Texts

No escape is needed inside a printable text, and hexadecimal is printable. -/

theorem isPrintable_iff (b : UInt8) : isPrintable b = true ↔
    0x20 ≤ b.toNat ∧ b.toNat ≤ 0x7E ∧ b.toNat ≠ 0x22 ∧ b.toNat ≠ 0x5C := by
  simp only [isPrintable, Bool.and_eq_true, decide_eq_true_eq, bne_iff_ne, ne_eq,
    UInt8.le_iff_toNat_le, ← UInt8.toNat_inj, and_assoc]
  rfl

/-- A printable character is written as itself. -/
theorem escapeChar_printable {c : Char}
    (h : ∀ b ∈ String.utf8EncodeChar c, isPrintable b = true) : Json.escapeChar c = [c] := by
  have hc : 0x20 ≤ c.toNat ∧ c.toNat ≠ 0x22 ∧ c.toNat ≠ 0x5C := by
    have hv : c.toNat = c.val.toNat := rfl
    rw [String.utf8EncodeChar.eq_def] at h
    simp only [] at h
    split at h
    · have hb := (isPrintable_iff _).mp (h _ (List.mem_singleton_self _))
      rw [UInt8.toNat_ofNat'] at hb
      omega
    all_goals omega
  have hne : ∀ (n : Nat) (d : Char), d.toNat = n → c.toNat ≠ n → c ≠ d := by
    rintro n d hd hn rfl
    exact hn hd
  rw [Json.escapeChar, if_neg (hne 34 _ rfl hc.2.1), if_neg (hne 92 _ rfl hc.2.2),
    if_neg (hne 8 _ rfl (by omega)), if_neg (hne 12 _ rfl (by omega)),
    if_neg (hne 10 _ rfl (by omega)), if_neg (hne 13 _ rfl (by omega)),
    if_neg (hne 9 _ rfl (by omega)), if_neg (by omega)]

theorem escape_printable : ∀ {cs : List Char}, (∀ b ∈ utf8 cs, isPrintable b = true) →
    Json.escape cs = cs
  | [], _ => rfl
  | c :: cs, h => by
      have hc : Json.escapeChar c = [c] := escapeChar_printable fun b hb =>
        h b (List.mem_append_left _ hb)
      have ih : Json.escape cs = cs := escape_printable fun b hb =>
        h b (List.mem_append_right _ hb)
      rw [Json.escape, List.flatMap_cons, hc, ← Json.escape, ih]
      rfl

/-- A printable text costs its octets and two quotes. -/
theorem canonicalBytes_str_size {s : String} (h : ∀ b ∈ octets s, isPrintable b = true) :
    (canonicalBytes (.str s)).length = (octets s).length + 2 := by
  rw [octets_eq_utf8] at h ⊢
  rw [canonicalBytes, sortKeys_str, Json.toVec, Json.write, Json.writeStr,
    Json.chars_eq_toList, escape_printable h, Json.utf8_length_cons (by decide),
    Json.utf8_append, List.length_append]
  rfl

theorem hexByte_printable (b : UInt8) : ∀ x ∈ utf8 (hexByte b), isPrintable x = true := by
  have h : ∀ n : Fin 256, (utf8 (hexByte (UInt8.ofNat n))).all isPrintable = true := by
    decide +kernel
  have hb := h ⟨b.toNat, b.toNat_lt⟩
  rw [UInt8.ofNat_toNat] at hb
  exact List.all_eq_true.mp hb

theorem hexByte_size (b : UInt8) : (utf8 (hexByte b)).length = 2 := by
  have h : ∀ n : Fin 256, (utf8 (hexByte (UInt8.ofNat n))).length = 2 := by
    decide +kernel
  have hb := h ⟨b.toNat, b.toNat_lt⟩
  rwa [UInt8.ofNat_toNat] at hb

theorem octets_hexEncode (bytes : Bytes) :
    octets (hexEncode bytes) = bytes.flatMap fun b => utf8 (hexByte b) := by
  rw [octets_eq_utf8, hexEncode, String.toList_ofList, utf8, List.flatMap_assoc]
  rfl

theorem hexEncode_printable (bytes : Bytes) :
    ∀ x ∈ octets (hexEncode bytes), isPrintable x = true := by
  rw [octets_hexEncode]
  intro x hx
  obtain ⟨b, _, hb⟩ := List.mem_flatMap.mp hx
  exact hexByte_printable b x hb

theorem hexEncode_size (bytes : Bytes) : (octets (hexEncode bytes)).length = 2 * bytes.length := by
  rw [octets_hexEncode]
  induction bytes with
  | nil => rfl
  | cons b bs ih =>
      rw [List.flatMap_cons, List.length_append, hexByte_size, ih, List.length_cons]
      omega

/-! ## RFC 3339 texts -/

theorem shapeOk_append (separator : Nat → Option UInt8) (cls : UInt8 → Bool) (i : Nat)
    (xs ys : Bytes) : shapeOk separator cls i (xs ++ ys) =
      (shapeOk separator cls i xs && shapeOk separator cls (i + xs.length) ys) := by
  induction xs generalizing i with
  | nil => rfl
  | cons x xs ih =>
      rw [List.cons_append, shapeOk, shapeOk, ih, Bool.and_assoc, List.length_cons,
        Nat.add_right_comm, Nat.add_assoc]

/-- Octets of the class where no separator stands. -/
theorem shapeOk_run {separator : Nat → Option UInt8} {cls : UInt8 → Bool} {i : Nat}
    {xs : Bytes} (hsep : ∀ j < xs.length, separator (i + j) = none)
    (hcls : ∀ x ∈ xs, cls x = true) : shapeOk separator cls i xs = true := by
  induction xs generalizing i with
  | nil => rfl
  | cons x xs ih =>
      have h0 : separator i = none := hsep 0 (Nat.succ_pos _)
      have hrest : shapeOk separator cls (i + 1) xs = true := by
        refine ih (fun j hj => ?_) fun y hy => hcls y (List.mem_cons_of_mem x hy)
        rw [Nat.add_assoc, Nat.add_comm 1 j]
        exact hsep (j + 1) (Nat.succ_lt_succ hj)
      rw [shapeOk, h0, hrest, Bool.and_true]
      exact hcls x List.mem_cons_self

/-- Digits are one octet each. -/
theorem utf8_digits {cs : List Char} (h : ∀ c ∈ cs, c.isDigit = true) :
    (utf8 cs).length = cs.length ∧ ∀ b ∈ utf8 cs, isAsciiDigit b = true := by
  induction cs with
  | nil => exact ⟨rfl, by simp [utf8]⟩
  | cons c cs ih =>
      obtain ⟨ihlen, ihcls⟩ := ih fun d hd => h d (List.mem_cons_of_mem c hd)
      have hc : 48 ≤ c.val.toNat ∧ c.val.toNat ≤ 57 := by
        have := h c List.mem_cons_self
        simpa [Char.isDigit, UInt32.le_iff_toNat_le] using this
      have henc : String.utf8EncodeChar c = [UInt8.ofNat c.val.toNat] := by
        rw [String.utf8EncodeChar.eq_def]
        simp only [if_pos (show c.val.toNat ≤ 127 by omega)]
      have hsplit : utf8 (c :: cs) = UInt8.ofNat c.val.toNat :: utf8 cs := by
        rw [utf8, List.flatMap_cons, henc]
        rfl
      rw [hsplit]
      refine ⟨by rw [List.length_cons, ihlen, List.length_cons], ?_⟩
      intro b hb
      rcases List.mem_cons.mp hb with rfl | hb
      · have hb : (UInt8.ofNat c.val.toNat).toNat = c.val.toNat := by
          rw [UInt8.toNat_ofNat']
          exact Nat.mod_eq_of_lt (by omega)
        simp only [isAsciiDigit, Bool.and_eq_true, decide_eq_true_eq, UInt8.le_iff_toNat_le, hb]
        exact hc
      · exact ihcls b hb

/-- A number that fits its width is that many digits. -/
theorem utf8_padded {width : Nat} (hw : 0 < width) {n : Int} (hn : 0 ≤ n ∧ n < 10 ^ width) :
    (utf8 (Calendar.padded width n)).length = width ∧
      ∀ b ∈ utf8 (Calendar.padded width n), isAsciiDigit b = true := by
  obtain ⟨hsize, hcls⟩ := utf8_digits (Calendar.padded_isDigit width hn.1)
  exact ⟨hsize.trans ((Calendar.padded_length_iff hw hn.1).mpr hn.2), hcls⟩

/-- The parts of an RFC 3339 text. -/
theorem octets_rfc3339 (s : Int) : octets (Calendar.rfc3339 s) =
    utf8 (Calendar.padded 4 (Calendar.civilFromDays (s / 86400)).1) ++ ([0x2D] ++
    (utf8 (Calendar.padded 2 (Calendar.civilFromDays (s / 86400)).2.1) ++ ([0x2D] ++
    (utf8 (Calendar.padded 2 (Calendar.civilFromDays (s / 86400)).2.2) ++ ([0x54] ++
    (utf8 (Calendar.padded 2 (s % 86400 / 3600)) ++ ([0x3A] ++
    (utf8 (Calendar.padded 2 (s % 86400 % 3600 / 60)) ++ ([0x3A] ++
    (utf8 (Calendar.padded 2 (s % 86400 % 60)) ++ [0x5A])))))))))) := by
  rw [octets_eq_utf8, Calendar.rfc3339, String.toList_ofList]
  simp only [utf8, List.flatMap_append, List.flatMap_cons, List.flatMap_nil, List.append_assoc,
    List.append_nil]
  rfl

/-- The text of an instant of the years 0 to 9999 is a timestamp. -/
theorem timestampValid_rfc3339 {s : Int} (h0 : -62167219200 ≤ s) (h1 : s < 253402300800) :
    timestampValid (octets (Calendar.rfc3339 s)) = true := by
  have hdate := Calendar.civilFromDays_bounds (show -719528 ≤ s / 86400 by omega)
    (show s / 86400 < 2932897 by omega)
  -- the six numbers, each with its digits
  obtain ⟨ly, cy⟩ := utf8_padded (by decide) hdate.1
  obtain ⟨lm, cm⟩ := utf8_padded (by decide) hdate.2.1
  obtain ⟨ld, cd⟩ := utf8_padded (by decide) hdate.2.2
  obtain ⟨lh, ch⟩ := utf8_padded (show 0 < 2 by decide) (n := s % 86400 / 3600) (by omega)
  obtain ⟨li, ci⟩ := utf8_padded (show 0 < 2 by decide) (n := s % 86400 % 3600 / 60) (by omega)
  obtain ⟨ls, cs⟩ := utf8_padded (show 0 < 2 by decide) (n := s % 86400 % 60) (by omega)
  rw [octets_rfc3339, timestampValid]
  have hsep : ∀ {i n : Nat} {xs : Bytes}, xs.length = n →
      (∀ b ∈ xs, isAsciiDigit b = true) → (∀ j < n, timestampSeparator (i + j) = none) →
      shapeOk timestampSeparator isAsciiDigit i xs = true := by
    rintro i n xs rfl hcls hsep
    exact shapeOk_run hsep hcls
  simp only [shapeOk_append, List.length_append, ly, lm, ld, lh, li, ls, List.length_cons,
    List.length_nil, Bool.and_eq_true, beq_self_eq_true, true_and]
  exact ⟨hsep ly cy (by decide), rfl, hsep lm cm (by decide), rfl, hsep ld cd (by decide), rfl,
    hsep lh ch (by decide), rfl, hsep li ci (by decide), rfl, hsep ls cs (by decide), rfl⟩

/-- A timestamp has a year of four digits. -/
theorem year_of_timestampValid {s : Int} (h : timestampValid (octets (Calendar.rfc3339 s)) = true) :
    0 ≤ (Calendar.civilFromDays (s / 86400)).1 ∧ (Calendar.civilFromDays (s / 86400)).1 ≤ 9999 := by
  rw [octets_rfc3339, timestampValid, Bool.and_eq_true, shapeOk_append, Bool.and_eq_true] at h
  obtain ⟨-, hshape, -⟩ := h
  generalize (Calendar.civilFromDays (s / 86400)).1 = year at hshape
  have hnonneg : 0 ≤ year := by
    by_contra hneg
    obtain ⟨n, rfl⟩ := Int.eq_negSucc_of_lt_zero (Int.not_le.mp hneg)
    -- the sign stands where a digit has to
    cases hshape
  refine ⟨hnonneg, ?_⟩
  by_contra hlong
  -- a fifth digit stands where the separator has to
  obtain ⟨hsize, hcls⟩ := utf8_digits (Calendar.padded_isDigit 4 hnonneg)
  have hlen : (utf8 (Calendar.padded 4 year)).length ≠ 4 := by
    rw [hsize, Ne, Calendar.padded_length_iff (by decide) hnonneg]
    omega
  have hfour : 4 ≤ (utf8 (Calendar.padded 4 year)).length := by
    rw [hsize]
    exact Calendar.le_length_padded 4 hnonneg
  match utf8 (Calendar.padded 4 year), hlen, hfour, hcls, hshape with
  | a :: b :: c :: d :: e :: rest, hlen, hfour, hcls, hshape =>
      simp only [shapeOk, timestampSeparator, Bool.and_eq_true, beq_iff_eq] at hshape
      have hdigit := hcls e (by simp)
      rw [hshape.2.2.2.2.1] at hdigit
      cases hdigit

/-- The instants whose text is a timestamp are those of the years 0 to
9999. -/
theorem range_of_timestampValid {s : Int}
    (h : timestampValid (octets (Calendar.rfc3339 s)) = true) :
    -62167219200 ≤ s ∧ s < 253402300800 := by
  obtain ⟨hlow, hhigh⟩ := year_of_timestampValid h
  have hfirst := Calendar.ge_of_year_nonneg hlow
  have hlast := Calendar.lt_of_year_le hhigh
  omega

theorem Timestamp.val_of_new {value : String} {t : Timestamp} (h : Timestamp.new value = .ok t) :
    t.val = value := by
  unfold Timestamp.new at h
  split at h
  · obtain rfl := Except.ok.inj h
    rfl
  · cases h

/-! ## A key -/

/-- A P-256 public key; concrete signatures are made with its private key. -/
def sampleKey : Bytes :=
  (hexDecode ("0460fed4ba255a9d31c961eb74c6356d68c049b8923b61fa6ce669622e60f29f" ++
    "b67903fe1008b8bc99a41ae9e95628bc64f2f1b20c2d7e9f5177a3c294d44622" ++ "99")).getD []

def sampleSubject : SubjectId := ⟨"alice", by decide, by decide, by decide⟩

def sampleEventId : EventId := ⟨"01890000-0000-7000-8000-000000000000", by decide⟩

def sampleInstant : Timestamp := ⟨"2026-01-01T00:00:00Z", by decide⟩

end ZeroSecret.Crypto
