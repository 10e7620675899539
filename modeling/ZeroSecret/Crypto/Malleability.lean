import ZeroSecret.Crypto.AuditSealVerified
import ZeroSecret.Crypto.IdentityAssertion

/-!
# One signed content, how many accepted byte strings

The canonicity check of both verifiers compares the octets with the document
they are read as. That fixes everything JSON leaves open, but the document
keeps the signature as text, and the text is decoded by a decoder that reads
both cases. So the accepted octets of a signed content are unique exactly when
its signature has no hexadecimal letter to change the case of.
-/

namespace ZeroSecret.Crypto

open Json (utf8)

/-! ## The case of hexadecimal digits -/

/-- All characters the decoder reads. -/
def hexDigits : List Char :=
  ['0', '1', '2', '3', '4', '5', '6', '7', '8', '9', 'a', 'b', 'c', 'd', 'e', 'f',
    'A', 'B', 'C', 'D', 'E', 'F']

def isHexLetter (c : Char) : Bool := ('a' ≤ c && c ≤ 'f') || ('A' ≤ c && c ≤ 'F')

def flipCase (c : Char) : Char :=
  if 'a' ≤ c ∧ c ≤ 'f' then c.toUpper
  else if 'A' ≤ c ∧ c ≤ 'F' then c.toLower
  else c

def flipText (s : String) : String := String.ofList (s.toList.map flipCase)

theorem mem_hexDigits {c : Char} {v : Nat} (h : Json.hexVal c = some v) : c ∈ hexDigits := by
  have hrange : ∀ lo hi : Nat, lo ≤ c.toNat → c.toNat ≤ hi →
      (∀ n, n ≤ hi → lo ≤ n → Char.ofNat n ∈ hexDigits) → c ∈ hexDigits := by
    intro lo hi hlo hhi hall
    have hc := hall c.toNat hhi hlo
    rwa [Char.ofNat_toNat] at hc
  unfold Json.hexVal at h
  split at h
  · rename_i hc
    exact hrange 48 57 hc.1 hc.2 (by decide)
  · split at h
    · rename_i hc
      exact hrange 97 102 hc.1 hc.2 (by decide)
    · split at h
      · rename_i hc
        exact hrange 65 70 hc.1 hc.2 (by decide)
      · cases h

theorem hexVal_flipCase : ∀ c ∈ hexDigits, Json.hexVal (flipCase c) = Json.hexVal c := by
  decide

theorem flipCase_mem : ∀ c ∈ hexDigits, flipCase c ∈ hexDigits := by
  decide

theorem flipCase_ne : ∀ c ∈ hexDigits, isHexLetter c = true → flipCase c ≠ c := by
  decide

/-- A value below ten has one spelling. -/
theorem eq_of_hexVal_eq : ∀ c ∈ hexDigits, isHexLetter c = false →
    ∀ d ∈ hexDigits, Json.hexVal d = Json.hexVal c → d = c := by
  decide

theorem hexDigit_octet : ∀ c ∈ hexDigits,
    (utf8 [c]).length = 1 ∧ ∀ b ∈ utf8 [c], isPrintable b = true := by
  decide

theorem hexVal_lt : ∀ c ∈ hexDigits, ∀ v ∈ Json.hexVal c, v < 16 := by
  decide

/-- What decodes is made of digits. -/
theorem hexDecodeChars_mem : ∀ {cs : List Char} {bs : Bytes}, hexDecodeChars cs = some bs →
    ∀ c ∈ cs, c ∈ hexDigits
  | [], _, _ => fun c hc => absurd hc List.not_mem_nil
  | [_], _, h => by cases h
  | a :: b :: cs, bs, h => by
      unfold hexDecodeChars at h
      obtain ⟨hi, hhi, h⟩ := Option.bind_eq_some_iff.mp h
      obtain ⟨lo, hlo, h⟩ := Option.bind_eq_some_iff.mp h
      obtain ⟨rest, hrest, -⟩ := Option.bind_eq_some_iff.mp h
      intro c hc
      rcases List.mem_cons.mp hc with rfl | hc
      · exact mem_hexDigits hhi
      · rcases List.mem_cons.mp hc with rfl | hc
        · exact mem_hexDigits hlo
        · exact hexDecodeChars_mem hrest c hc

theorem hexDecodeChars_flip : ∀ {cs : List Char}, (∀ c ∈ cs, c ∈ hexDigits) →
    hexDecodeChars (cs.map flipCase) = hexDecodeChars cs
  | [], _ => rfl
  | [_], _ => rfl
  | a :: b :: cs, h => by
      have ha := hexVal_flipCase a (h a List.mem_cons_self)
      have hb := hexVal_flipCase b (h b (List.mem_cons_of_mem a List.mem_cons_self))
      have ih : hexDecodeChars (cs.map flipCase) = hexDecodeChars cs :=
        hexDecodeChars_flip fun c hc => h c (List.mem_cons_of_mem a (List.mem_cons_of_mem b hc))
      rw [List.map_cons, List.map_cons, hexDecodeChars, hexDecodeChars, ha, hb, ih]

/-- **Without letters the text is determined by the octets it decodes to.** -/
theorem hexDecodeChars_inj : ∀ {cs ds : List Char} {bs : Bytes},
    (∀ c ∈ cs, isHexLetter c = false) → hexDecodeChars cs = some bs →
    hexDecodeChars ds = some bs → ds = cs
  | [], [], _, _, _, _ => rfl
  | [], [_], _, _, _, h' => by cases h'
  | [], _ :: _ :: _, _, _, h, h' => by
      obtain rfl := Option.some.inj h
      unfold hexDecodeChars at h'
      obtain ⟨_, _, h'⟩ := Option.bind_eq_some_iff.mp h'
      obtain ⟨_, _, h'⟩ := Option.bind_eq_some_iff.mp h'
      obtain ⟨_, _, h'⟩ := Option.bind_eq_some_iff.mp h'
      cases h'
  | [_], _, _, _, h, _ => by cases h
  | _ :: _ :: _, [], _, _, h, h' => by
      obtain rfl := Option.some.inj h'
      unfold hexDecodeChars at h
      obtain ⟨_, _, h⟩ := Option.bind_eq_some_iff.mp h
      obtain ⟨_, _, h⟩ := Option.bind_eq_some_iff.mp h
      obtain ⟨_, _, h⟩ := Option.bind_eq_some_iff.mp h
      cases h
  | _ :: _ :: _, [_], _, _, _, h' => by cases h'
  | a :: b :: cs, a' :: b' :: ds, bs, hplain, h, h' => by
      unfold hexDecodeChars at h h'
      obtain ⟨hi, hhi, h⟩ := Option.bind_eq_some_iff.mp h
      obtain ⟨lo, hlo, h⟩ := Option.bind_eq_some_iff.mp h
      obtain ⟨rest, hrest, h⟩ := Option.bind_eq_some_iff.mp h
      obtain ⟨hi', hhi', h'⟩ := Option.bind_eq_some_iff.mp h'
      obtain ⟨lo', hlo', h'⟩ := Option.bind_eq_some_iff.mp h'
      obtain ⟨rest', hrest', h'⟩ := Option.bind_eq_some_iff.mp h'
      have heq := Option.some.inj (h.trans h'.symm)
      obtain ⟨hoctet, rfl⟩ := List.cons_eq_cons.mp heq
      have h16 : ∀ {c : Char} {v : Nat}, Json.hexVal c = some v → v < 16 :=
        fun hc => hexVal_lt _ (mem_hexDigits hc) _ hc
      have hnat : hi * 16 + lo = hi' * 16 + lo' := by
        have ht := congrArg UInt8.toNat hoctet
        have h1 := h16 hhi
        have h2 := h16 hlo
        have h3 := h16 hhi'
        have h4 := h16 hlo'
        rwa [UInt8.toNat_ofNat', UInt8.toNat_ofNat', Nat.mod_eq_of_lt (by omega),
          Nat.mod_eq_of_lt (by omega)] at ht
      have h2 := h16 hlo
      have h4 := h16 hlo'
      obtain rfl : hi' = hi := by omega
      obtain rfl : lo' = lo := by omega
      have ha : a' = a := eq_of_hexVal_eq a (mem_hexDigits hhi) (hplain a List.mem_cons_self) a'
        (mem_hexDigits hhi') (hhi'.trans hhi.symm)
      have hb : b' = b := eq_of_hexVal_eq b (mem_hexDigits hlo)
        (hplain b (List.mem_cons_of_mem a List.mem_cons_self)) b' (mem_hexDigits hlo')
        (hlo'.trans hlo.symm)
      have ih : ds = cs := hexDecodeChars_inj
        (fun c hc => hplain c (List.mem_cons_of_mem a (List.mem_cons_of_mem b hc))) hrest hrest'
      rw [ha, hb, ih]

/-- A text with no hexadecimal letter. -/
def LetterFree (s : String) : Prop := ∀ c ∈ s.toList, isHexLetter c = false

instance (s : String) : Decidable (LetterFree s) :=
  inferInstanceAs (Decidable (∀ c ∈ s.toList, _))

theorem hexDecode_inj {s t : String} {bs : Bytes} (hs : LetterFree s)
    (h : hexDecode s = some bs) (h' : hexDecode t = some bs) : t = s := by
  rw [hexDecode, Json.chars_eq_toList] at h h'
  exact String.toList_inj.mp (hexDecodeChars_inj hs h h')

theorem hexDecode_flipText {s : String} {bs : Bytes} (h : hexDecode s = some bs) :
    hexDecode (flipText s) = some bs := by
  rw [hexDecode, Json.chars_eq_toList] at h ⊢
  rw [flipText, String.toList_ofList, hexDecodeChars_flip (hexDecodeChars_mem h), h]

theorem flipText_ne {s : String} {bs : Bytes} (h : hexDecode s = some bs) (hs : ¬ LetterFree s) :
    flipText s ≠ s := by
  intro heq
  refine hs fun c hc => ?_
  by_contra hletter
  rw [hexDecode, Json.chars_eq_toList] at h
  have hmap : s.toList.map flipCase = s.toList := by
    have hl := congrArg String.toList heq
    rwa [flipText, String.toList_ofList] at hl
  have hfix : flipCase c = c := by
    have hid : s.toList.map flipCase = s.toList.map id := by rw [hmap, List.map_id]
    exact (List.map_inj_left.mp hid) c hc
  exact flipCase_ne c (hexDecodeChars_mem h c hc) (by simpa using hletter) hfix

/-- Digits are printable and cost one octet each. -/
theorem hexText_octets : ∀ {cs : List Char}, (∀ c ∈ cs, c ∈ hexDigits) →
    (utf8 cs).length = cs.length ∧ ∀ b ∈ utf8 cs, isPrintable b = true
  | [], _ => ⟨rfl, fun b hb => absurd hb List.not_mem_nil⟩
  | c :: cs, h => by
      obtain ⟨hlen, hprint⟩ := hexText_octets fun d hd => h d (List.mem_cons_of_mem c hd)
      obtain ⟨hlen1, hprint1⟩ := hexDigit_octet c (h c List.mem_cons_self)
      have hsplit : utf8 (c :: cs) = utf8 [c] ++ utf8 cs := Json.utf8_append [c] cs
      rw [hsplit]
      refine ⟨by rw [List.length_append, hlen, hlen1, List.length_cons, Nat.add_comm], ?_⟩
      intro b hb
      rcases List.mem_append.mp hb with hb | hb
      · exact hprint1 b hb
      · exact hprint b hb

/-- Flipping the case keeps the canonical size. -/
theorem size_flipText {s : String} {bs : Bytes} (h : hexDecode s = some bs) :
    (canonicalBytes (.str (flipText s))).length = (canonicalBytes (.str s)).length := by
  rw [hexDecode, Json.chars_eq_toList] at h
  have hmem := hexDecodeChars_mem h
  have hmem' : ∀ c ∈ (flipText s).toList, c ∈ hexDigits := by
    rw [flipText, String.toList_ofList]
    intro c hc
    obtain ⟨d, hd, rfl⟩ := List.mem_map.mp hc
    exact flipCase_mem d (hmem d hd)
  have hlen : (flipText s).toList.length = s.toList.length := by
    rw [flipText, String.toList_ofList, List.length_map]
  have hsize : ∀ {t : String}, (∀ c ∈ t.toList, c ∈ hexDigits) →
      (canonicalBytes (.str t)).length = t.toList.length + 2 := by
    intro t ht
    obtain ⟨hl, hp⟩ := hexText_octets ht
    rw [← octets_eq_utf8] at hl hp
    rw [canonicalBytes_str_size hp, hl]
  rw [hsize hmem', hsize hmem, hlen]

/-! ## The audit seal -/

namespace AuditSeal

/-- The same unsigned document under the same signatures: key identifiers and
decoded octets. -/
def SameSigned (bytes bytes' : Bytes) : Prop :=
  ∃ doc doc', WireDocument.fromSlice bytes = some doc ∧
    WireDocument.fromSlice bytes' = some doc' ∧
    unsignedDocumentFromWire doc = unsignedDocumentFromWire doc' ∧
    doc.signature.components.map (fun c => (c.keyId, hexDecode c.value)) =
      doc'.signature.components.map (fun c => (c.keyId, hexDecode c.value))

/-- The signature texts have no hexadecimal letter. -/
def SignatureLetterFree (bytes : Bytes) : Prop :=
  ∀ doc, WireDocument.fromSlice bytes = some doc →
    ∀ c ∈ doc.signature.components, LetterFree c.value

theorem asNat_lt {bound n : Nat} {v : Json} (h : Json.asNat bound v = some n) : n < bound := by
  unfold Json.asNat at h
  split at h
  · split at h
    · rename_i hn
      rw [← Option.some.inj h]
      omega
    · cases h
  · cases h

theorem asNat_of_required {bound n : Nat} {f : String → Option Json} {k : String}
    (h : Json.required f k (Json.asNat bound) = some n) : n < bound := by
  obtain ⟨v, -, hv⟩ := Option.bind_eq_some_iff.mp h
  exact asNat_lt hv

theorem optional_eq_some {α : Type} {rd : Json → Option α} {f : String → Option Json} {k : String}
    {a : α} (h : Json.optional f k rd = some (some a)) : ∃ v, rd v = some a := by
  unfold Json.optional at h
  split at h
  · cases h
  · cases h
  · rename_i v _ _
    obtain ⟨b, hb, hab⟩ := Option.map_eq_some_iff.mp h
    exact ⟨v, by rw [hb, hab]⟩

theorem ttl_of_read {v : Json} {d : WireDecision} (h : WireDecision.read v = some d) {t : Nat}
    (ht : d.grantedTtlSeconds = some t) : t < 2 ^ 64 := by
  unfold WireDecision.read at h
  obtain ⟨f, -, h⟩ := Option.bind_eq_some_iff.mp h
  obtain ⟨_, -, h⟩ := Option.bind_eq_some_iff.mp h
  obtain ⟨_, -, h⟩ := Option.bind_eq_some_iff.mp h
  obtain ⟨_, -, h⟩ := Option.bind_eq_some_iff.mp h
  obtain ⟨_, -, h⟩ := Option.bind_eq_some_iff.mp h
  obtain ⟨ttl, httl, h⟩ := Option.bind_eq_some_iff.mp h
  obtain ⟨_, -, h⟩ := Option.bind_eq_some_iff.mp h
  obtain ⟨_, -, h⟩ := Option.bind_eq_some_iff.mp h
  obtain rfl := Option.some.inj h
  obtain rfl : ttl = some t := ht
  obtain ⟨w, hw⟩ := optional_eq_some httl
  exact asNat_lt hw

/-- What is read is in range. -/
theorem bounded_of_fromSlice {bytes : Bytes} {doc : WireDocument}
    (h : WireDocument.fromSlice bytes = some doc) : doc.Bounded := by
  obtain ⟨v, -, h⟩ := Option.bind_eq_some_iff.mp h
  unfold WireDocument.read at h
  obtain ⟨f, -, h⟩ := Option.bind_eq_some_iff.mp h
  obtain ⟨version, hversion, h⟩ := Option.bind_eq_some_iff.mp h
  obtain ⟨_, -, h⟩ := Option.bind_eq_some_iff.mp h
  obtain ⟨sequence, hsequence, h⟩ := Option.bind_eq_some_iff.mp h
  obtain ⟨_, -, h⟩ := Option.bind_eq_some_iff.mp h
  obtain ⟨_, -, h⟩ := Option.bind_eq_some_iff.mp h
  obtain ⟨_, -, h⟩ := Option.bind_eq_some_iff.mp h
  obtain ⟨_, -, h⟩ := Option.bind_eq_some_iff.mp h
  obtain ⟨_, -, h⟩ := Option.bind_eq_some_iff.mp h
  obtain ⟨_, -, h⟩ := Option.bind_eq_some_iff.mp h
  obtain ⟨_, -, h⟩ := Option.bind_eq_some_iff.mp h
  obtain ⟨decision, hdecision, h⟩ := Option.bind_eq_some_iff.mp h
  obtain ⟨_, -, h⟩ := Option.bind_eq_some_iff.mp h
  obtain ⟨_, -, h⟩ := Option.bind_eq_some_iff.mp h
  obtain rfl := Option.some.inj h
  refine ⟨asNat_of_required hversion, asNat_of_required hsequence, ?_⟩
  intro d t hd ht
  obtain rfl : decision = some d := hd
  obtain ⟨w, hw⟩ := optional_eq_some hdecision
  exact ttl_of_read hw ht

/-- The document with its signature text in the other case. -/
def flipped (doc : WireDocument) (keyId value : String) : WireDocument :=
  { doc with signature := wireSignature keyId (flipText value) }

theorem size_flipped {doc : WireDocument} {keyId value : String} {sig : Bytes}
    (hdoc : doc.signature = wireSignature keyId value) (hv : hexDecode value = some sig) :
    (canonicalBytes (.obj (wireMembers (flipped doc keyId value)))).length =
      (canonicalBytes (.obj (wireMembers doc))).length := by
  have hne : unsignedDocumentFromWire doc ≠ [] := by
    simp [unsignedDocumentFromWire]
  have hsize : (canonicalBytes (signatureValue keyId (flipText value))).length =
      (canonicalBytes (signatureValue keyId value)).length :=
    signatureValue_size (size_flipText hv)
  change (canonicalBytes (.obj (unsignedDocumentFromWire doc ++
    [("signature", signatureValue keyId (flipText value))]))).length = _
  rw [wireMembers, hdoc, signatureFromWire_wireSignature, canonicalBytes_snoc_size hne,
    canonicalBytes_snoc_size hne, canonicalMemberSize, canonicalMemberSize, hsize]

/-- **Flipping the case of the signature gives other accepted octets** of the
same content. -/
theorem verify_flipped {P : Primitives} {keys : List AcceptedVerifyingKey} {bytes : Bytes}
    {policy : AcceptancePolicy} {event : VerifiedAuditEvent} {doc : WireDocument} {keyId value : String}
    (h : verify P keys bytes policy = .ok event) (hdoc : WireDocument.fromSlice bytes = some doc)
    (hsig : doc.signature = wireSignature keyId value) (hletter : ¬ LetterFree value) :
    verify P keys (canonicalBytes (.obj (wireMembers (flipped doc keyId value)))) policy =
        .ok event ∧
      SameSigned bytes (canonicalBytes (.obj (wireMembers (flipped doc keyId value)))) ∧
      canonicalBytes (.obj (wireMembers (flipped doc keyId value))) ≠ bytes := by
  obtain ⟨hsize, doc', hdoc', hcanonical, hacc⟩ := verify_eq_ok_iff.mp h
  obtain rfl : doc = doc' := Option.some.inj (hdoc.symm.trans hdoc')
  obtain ⟨keyId', value', key, sig, hsig', hkey, hdecode, hecdsa⟩ := hacc.signature
  obtain ⟨rfl, rfl⟩ : keyId = keyId' ∧ value = value' := by
    rw [hsig] at hsig'
    simpa [wireSignature] using hsig'
  have hbounded := bounded_of_fromSlice hdoc
  have hbounded' : (flipped doc keyId value).Bounded :=
    ⟨hbounded.schemaVersion, hbounded.sequence, hbounded.ttl⟩
  have hread := fromSlice_wireMembers hbounded'
  have hacc' : Accepts P keys policy (flipped doc keyId value) event := {
    version := hacc.version
    accepted := hacc.accepted
    eventType := hacc.eventType
    kind := hacc.kind
    outcome := hacc.outcome
    coupled := hacc.coupled
    decision := hacc.decision
    signature := ⟨keyId, flipText value, key, sig, rfl, hkey, hexDecode_flipText hdecode, hecdsa⟩
    domain := hacc.domain
    prevHash := hacc.prevHash
    reported := hacc.reported }
  refine ⟨verify_eq_ok_iff.mpr ⟨?_, flipped doc keyId value, hread, rfl, hacc'⟩,
    ⟨doc, flipped doc keyId value, hdoc, hread, rfl, ?_⟩, ?_⟩
  · rw [size_flipped hsig hdecode, hcanonical]
    exact hsize
  · rw [hsig]
    exact congrArg (fun o => [(keyId, o)]) (hdecode.trans (hexDecode_flipText hdecode).symm)
  · -- equal octets would be read as equal documents
    intro heq
    rw [heq, hdoc] at hread
    have hvalue : doc.signature = wireSignature keyId (flipText value) :=
      congrArg WireDocument.signature (Option.some.inj hread)
    rw [hsig] at hvalue
    have htext : flipText value = value := by
      simp only [wireSignature, WireSignature.mk.injEq, List.cons.injEq,
        WireSignatureComponent.mk.injEq, true_and, and_true] at hvalue
      exact hvalue.symm
    exact flipText_ne hdecode hletter htext

/-- Octets are letter free when their one signature text is. -/
theorem signatureLetterFree_of {bytes : Bytes} {doc : WireDocument} {keyId value : String}
    (hdoc : WireDocument.fromSlice bytes = some doc)
    (hsig : doc.signature = wireSignature keyId value) (hfree : LetterFree value) :
    SignatureLetterFree bytes := by
  intro doc' hdoc' c hc
  rw [hdoc] at hdoc'
  rw [← Option.some.inj hdoc', hsig, wireSignature, List.mem_singleton] at hc
  rw [hc]
  exact hfree

/-- **Without letters the accepted octets of a content are unique.** -/
theorem verify_unique {P : Primitives} {keys : List AcceptedVerifyingKey} {bytes bytes' : Bytes}
    {policy : AcceptancePolicy} {event event' : VerifiedAuditEvent}
    (h : verify P keys bytes policy = .ok event) (h' : verify P keys bytes' policy = .ok event')
    (hfree : SignatureLetterFree bytes) (hsame : SameSigned bytes bytes') : bytes' = bytes := by
  obtain ⟨-, doc, hdoc, hcanonical, hacc⟩ := verify_eq_ok_iff.mp h
  obtain ⟨-, doc', hdoc', hcanonical', hacc'⟩ := verify_eq_ok_iff.mp h'
  obtain ⟨d, d', hd, hd', hunsigned, hsigs⟩ := hsame
  obtain rfl : doc = d := Option.some.inj (hdoc.symm.trans hd)
  obtain rfl : doc' = d' := Option.some.inj (hdoc'.symm.trans hd')
  obtain ⟨keyId, value, -, sig, hsig, -, hdecode, -⟩ := hacc.signature
  obtain ⟨keyId', value', -, sig', hsig', -, hdecode', -⟩ := hacc'.signature
  rw [hsig, hsig'] at hsigs
  simp only [wireSignature, List.map_cons, List.map_nil, List.cons.injEq, Prod.mk.injEq,
    and_true] at hsigs
  have hplain : LetterFree value := by
    refine hfree doc hdoc ⟨"ecdsa-p256", keyId, value⟩ ?_
    rw [hsig]
    exact List.mem_cons_self
  have hvalue : value' = value := hexDecode_inj hplain hdecode (hsigs.2 ▸ hdecode)
  rw [← hcanonical, ← hcanonical', wireMembers, wireMembers, ← hunsigned, hsig, hsig', hvalue,
    hsigs.1]

end AuditSeal

/-! ## The identity assertion -/

namespace IdentityAssertion

open AuditSeal (asNat_of_required)

/-- The same unsigned document under the same signatures: key identifiers and
decoded octets. -/
def SameSigned (bytes bytes' : Bytes) : Prop :=
  ∃ doc doc', WireDocument.fromSlice bytes = some doc ∧
    WireDocument.fromSlice bytes' = some doc' ∧
    unsignedDocumentFromWire doc = unsignedDocumentFromWire doc' ∧
    doc.signatures.map (fun c => (c.keyId, hexDecode c.value)) =
      doc'.signatures.map (fun c => (c.keyId, hexDecode c.value))

/-- The signature texts have no hexadecimal letter. -/
def SignatureLetterFree (bytes : Bytes) : Prop :=
  ∀ doc, WireDocument.fromSlice bytes = some doc → ∀ c ∈ doc.signatures, LetterFree c.value

/-- The document with its signature text in the other case. -/
def flipped (doc : WireDocument) (keyId value : String) : WireDocument :=
  { doc with signatures := [⟨"ecdsa-p256", keyId, flipText value⟩] }

theorem size_flipped {doc : WireDocument} {keyId value : String} {sig : Bytes}
    (hdoc : doc.signatures = [⟨"ecdsa-p256", keyId, value⟩]) (hv : hexDecode value = some sig) :
    (canonicalBytes (.obj (wireMembers (flipped doc keyId value)))).length =
      (canonicalBytes (.obj (wireMembers doc))).length := by
  have hne : unsignedDocumentFromWire doc ≠ [] := List.cons_ne_nil _ _
  have hsize : (canonicalBytes (signaturesFromWire
      [⟨"ecdsa-p256", keyId, flipText value⟩])).length =
      (canonicalBytes (signaturesFromWire [⟨"ecdsa-p256", keyId, value⟩])).length := by
    simp only [signaturesFromWire, List.map_cons, List.map_nil,
      AuditSeal.canonicalBytes_singleton_size, canonicalBytes_obj_size (List.cons_ne_nil _ _),
      canonicalMemberSize, size_flipText hv, List.length_cons]
  change (canonicalBytes (.obj (unsignedDocumentFromWire doc ++
    [("signatures", signaturesFromWire [⟨"ecdsa-p256", keyId, flipText value⟩])]))).length = _
  rw [wireMembers, hdoc, canonicalBytes_snoc_size hne, canonicalBytes_snoc_size hne,
    canonicalMemberSize, canonicalMemberSize, hsize]

/-- **Flipping the case of the signature gives other accepted octets** of the
same content. -/
theorem verify_flipped {P : Primitives} {keys : List AcceptedVerifyingKey} {bytes : Bytes}
    {policy : AcceptancePolicy} {assertion : VerifiedAssertion} {doc : WireDocument} {keyId value : String}
    (h : verify P keys bytes policy = .ok assertion) (hdoc : WireDocument.fromSlice bytes = some doc)
    (hsig : doc.signatures = [⟨"ecdsa-p256", keyId, value⟩]) (hletter : ¬ LetterFree value) :
    verify P keys (canonicalBytes (.obj (wireMembers (flipped doc keyId value)))) policy =
        .ok assertion ∧
      SameSigned bytes (canonicalBytes (.obj (wireMembers (flipped doc keyId value)))) ∧
      canonicalBytes (.obj (wireMembers (flipped doc keyId value))) ≠ bytes := by
  obtain ⟨hsize, doc', hdoc', hcanonical, hacc⟩ := verify_eq_ok_iff.mp h
  obtain rfl : doc = doc' := Option.some.inj (hdoc.symm.trans hdoc')
  obtain ⟨keyId', value', key, sig, hsig', hkey, hdecode, hecdsa⟩ := hacc.signature
  obtain ⟨rfl, rfl⟩ : keyId = keyId' ∧ value = value' := by
    rw [hsig] at hsig'
    simpa using hsig'
  have hversion : (flipped doc keyId value).schemaVersion < 2 ^ 32 := by
    change doc.schemaVersion < 2 ^ 32
    rw [hacc.version]
    decide
  have hread := fromSlice_wireMembers hversion
  have hacc' : Accepts P keys policy (flipped doc keyId value) assertion := {
    version := hacc.version
    suite := hacc.suite
    accepted := hacc.accepted
    signature := ⟨keyId, flipText value, key, sig, rfl, hkey, hexDecode_flipText hdecode, hecdsa⟩
    domain := hacc.domain
    window := hacc.window
    reported := hacc.reported }
  refine ⟨verify_eq_ok_iff.mpr ⟨?_, flipped doc keyId value, hread, rfl, hacc'⟩,
    ⟨doc, flipped doc keyId value, hdoc, hread, rfl, ?_⟩, ?_⟩
  · rw [size_flipped hsig hdecode, hcanonical]
    exact hsize
  · rw [hsig]
    exact congrArg (fun o => [(keyId, o)]) (hdecode.trans (hexDecode_flipText hdecode).symm)
  · -- equal octets would be read as equal documents
    intro heq
    rw [heq, hdoc] at hread
    have hvalue : doc.signatures = [⟨"ecdsa-p256", keyId, flipText value⟩] :=
      congrArg WireDocument.signatures (Option.some.inj hread)
    rw [hsig] at hvalue
    have htext : flipText value = value := by
      simp only [List.cons.injEq, AuditSeal.WireSignatureComponent.mk.injEq, true_and,
        and_true] at hvalue
      exact hvalue.symm
    exact flipText_ne hdecode hletter htext

/-- Octets are letter free when their one signature text is. -/
theorem signatureLetterFree_of {bytes : Bytes} {doc : WireDocument} {keyId value : String}
    (hdoc : WireDocument.fromSlice bytes = some doc)
    (hsig : doc.signatures = [⟨"ecdsa-p256", keyId, value⟩]) (hfree : LetterFree value) :
    SignatureLetterFree bytes := by
  intro doc' hdoc' c hc
  rw [hdoc] at hdoc'
  rw [← Option.some.inj hdoc', hsig, List.mem_singleton] at hc
  rw [hc]
  exact hfree

/-- **Without letters the accepted octets of a content are unique.** -/
theorem verify_unique {P : Primitives} {keys : List AcceptedVerifyingKey} {bytes bytes' : Bytes}
    {policy : AcceptancePolicy} {assertion assertion' : VerifiedAssertion}
    (h : verify P keys bytes policy = .ok assertion)
    (h' : verify P keys bytes' policy = .ok assertion')
    (hfree : SignatureLetterFree bytes) (hsame : SameSigned bytes bytes') : bytes' = bytes := by
  obtain ⟨-, doc, hdoc, hcanonical, hacc⟩ := verify_eq_ok_iff.mp h
  obtain ⟨-, doc', hdoc', hcanonical', hacc'⟩ := verify_eq_ok_iff.mp h'
  obtain ⟨d, d', hd, hd', hunsigned, hsigs⟩ := hsame
  obtain rfl : doc = d := Option.some.inj (hdoc.symm.trans hd)
  obtain rfl : doc' = d' := Option.some.inj (hdoc'.symm.trans hd')
  obtain ⟨keyId, value, -, sig, hsig, -, hdecode, -⟩ := hacc.signature
  obtain ⟨keyId', value', -, sig', hsig', -, hdecode', -⟩ := hacc'.signature
  rw [hsig, hsig'] at hsigs
  simp only [List.map_cons, List.map_nil, List.cons.injEq, Prod.mk.injEq, and_true] at hsigs
  have hplain : LetterFree value := by
    refine hfree doc hdoc ⟨"ecdsa-p256", keyId, value⟩ ?_
    rw [hsig]
    exact List.mem_cons_self
  have hvalue : value' = value := hexDecode_inj hplain hdecode (hsigs.2 ▸ hdecode)
  rw [← hcanonical, ← hcanonical', wireMembers, wireMembers, ← hunsigned, hsig, hsig', hvalue,
    hsigs.1]

/-! ### One assertion -/

def sampleClaims : AssertionClaims := loginClaims "identity-provider"

def sampleAssertionKey : AcceptedVerifyingKey := ⟨"b18b86ce1389e46d", sampleKey⟩

def sampleSignatureText : String :=
  "03e59bbee2da91723cc3efcdd329ee22edb399b755b4aa03a3281d161d6486f5" ++
    "e34091f4fdbbe67755f99ed3e582689acc1229d353b12b19164c3d510189f353"

def sampleDocument : WireDocument where
  schemaVersion := 1
  suite := suiteV1
  authorityDomain := sampleClaims.authorityDomain
  subjectId := sampleClaims.subjectId.val
  aal := sampleClaims.aal.asStr
  authMethod := sampleClaims.authMethod.val
  audience := sampleClaims.audience.val
  issuedAt := sampleClaims.issuedAt.val
  expiresAt := sampleClaims.expiresAt.val
  auditEventId := sampleClaims.auditEventId.val
  signatures := [⟨"ecdsa-p256", sampleAssertionKey.keyId, sampleSignatureText⟩]

def sampleAssertion : Bytes := canonicalBytes (.obj (wireMembers sampleDocument))

def sampleAssertionPolicy : AcceptancePolicy :=
  ⟨[suiteV1], ⟨"2026-08-23T10:01:00Z", by decide⟩, "identity-provider"⟩

theorem fromSlice_sampleAssertion : WireDocument.fromSlice sampleAssertion = some sampleDocument :=
  fromSlice_wireMembers (by decide)

def sampleVerified : VerifiedAssertion :=
  ⟨"alice", "AAL2", "webauthn/device-bound", "policy-engine", "2026-08-23T10:00:00Z",
    "2026-08-23T10:02:00Z", "0198e6c1-0000-7000-8000-000000000000"⟩

theorem verify_sampleAssertion :
    verify Primitives.standard [sampleAssertionKey] sampleAssertion sampleAssertionPolicy =
      .ok sampleVerified := by
  have hdecode : hexDecode sampleSignatureText = some ((hexDecode sampleSignatureText).getD []) := by
    decide +kernel
  refine verify_eq_ok_iff.mpr ⟨by decide +kernel, sampleDocument, fromSlice_sampleAssertion,
    rfl, ?_⟩
  exact {
    version := rfl
    suite := rfl
    accepted := List.mem_cons_self
    signature := ⟨sampleAssertionKey.keyId, sampleSignatureText, sampleAssertionKey, _, rfl,
      by rw [List.find?_cons, beq_self_eq_true], hdecode, by decide +kernel⟩
    domain := rfl
    window := by decide +kernel
    reported := rfl }

end IdentityAssertion

/-! ## Both suites -/

/-- **Accepted octets are the only ones of their content exactly when their
signature has no hexadecimal letter**, for audit events and for assertions. -/
theorem accepted_octets_unique_iff (P : Primitives) :
    (∀ keys policy bytes event, AuditSeal.verify P keys bytes policy = .ok event →
      ((∀ bytes' event', AuditSeal.verify P keys bytes' policy = .ok event' →
          AuditSeal.SameSigned bytes bytes' → bytes' = bytes) ↔
        AuditSeal.SignatureLetterFree bytes)) ∧
    (∀ keys policy bytes assertion,
      IdentityAssertion.verify P keys bytes policy = .ok assertion →
      ((∀ bytes' assertion', IdentityAssertion.verify P keys bytes' policy = .ok assertion' →
          IdentityAssertion.SameSigned bytes bytes' → bytes' = bytes) ↔
        IdentityAssertion.SignatureLetterFree bytes)) := by
  constructor
  · intro keys policy bytes event h
    constructor
    · intro hunique
      obtain ⟨-, doc, hdoc, -, hacc⟩ := AuditSeal.verify_eq_ok_iff.mp h
      obtain ⟨keyId, value, -, -, hsig, -⟩ := hacc.signature
      refine AuditSeal.signatureLetterFree_of hdoc hsig ?_
      by_contra hletter
      obtain ⟨h', hsame, hne⟩ := AuditSeal.verify_flipped h hdoc hsig hletter
      exact hne (hunique _ event h' hsame)
    · intro hfree bytes' event' h' hsame
      exact AuditSeal.verify_unique h h' hfree hsame
  · intro keys policy bytes assertion h
    constructor
    · intro hunique
      obtain ⟨-, doc, hdoc, -, hacc⟩ := IdentityAssertion.verify_eq_ok_iff.mp h
      obtain ⟨keyId, value, -, -, hsig, -⟩ := hacc.signature
      refine IdentityAssertion.signatureLetterFree_of hdoc hsig ?_
      by_contra hletter
      obtain ⟨h', hsame, hne⟩ := IdentityAssertion.verify_flipped h hdoc hsig hletter
      exact hne (hunique _ assertion h' hsame)
    · intro hfree bytes' assertion' h' hsame
      exact IdentityAssertion.verify_unique h h' hfree hsame

/-- The sample assertion with its signature in upper case. -/
def upperCasedAssertion : Bytes := canonicalBytes (.obj (IdentityAssertion.wireMembers
  (IdentityAssertion.flipped IdentityAssertion.sampleDocument
    IdentityAssertion.sampleAssertionKey.keyId IdentityAssertion.sampleSignatureText)))

/-- Two accepted byte strings of one signed assertion. -/
theorem upperCasedAssertion_accepted :
    IdentityAssertion.verify Primitives.standard [IdentityAssertion.sampleAssertionKey]
      IdentityAssertion.sampleAssertion IdentityAssertion.sampleAssertionPolicy =
        .ok IdentityAssertion.sampleVerified ∧
    IdentityAssertion.verify Primitives.standard [IdentityAssertion.sampleAssertionKey]
      upperCasedAssertion IdentityAssertion.sampleAssertionPolicy =
        .ok IdentityAssertion.sampleVerified ∧
    IdentityAssertion.SameSigned IdentityAssertion.sampleAssertion upperCasedAssertion ∧
    upperCasedAssertion ≠ IdentityAssertion.sampleAssertion :=
  ⟨IdentityAssertion.verify_sampleAssertion,
    IdentityAssertion.verify_flipped IdentityAssertion.verify_sampleAssertion
      IdentityAssertion.fromSlice_sampleAssertion rfl (by decide +kernel)⟩

/-- The sample assertion, whose signature has letters, and a sealed audit
event. -/
theorem accepted_octets_unique_iff_samples :
    (¬ ∀ bytes' assertion', IdentityAssertion.verify Primitives.standard
        [IdentityAssertion.sampleAssertionKey] bytes' IdentityAssertion.sampleAssertionPolicy =
          .ok assertion' →
      IdentityAssertion.SameSigned IdentityAssertion.sampleAssertion bytes' →
      bytes' = IdentityAssertion.sampleAssertion) ∧
    ∃ bytes, AuditSeal.verify Primitives.standard
        [⟨(AuditSeal.AuditSealer.ofPublicKey Primitives.standard sampleKey).keyId, sampleKey⟩]
        bytes ⟨[AuditSeal.suiteV1], "acme"⟩ = .ok AuditSeal.issuedEvent.verified ∧
      ((∀ bytes' event', AuditSeal.verify Primitives.standard
          [⟨(AuditSeal.AuditSealer.ofPublicKey Primitives.standard sampleKey).keyId, sampleKey⟩]
          bytes' ⟨[AuditSeal.suiteV1], "acme"⟩ = .ok event' →
          AuditSeal.SameSigned bytes bytes' → bytes' = bytes) ↔
        AuditSeal.SignatureLetterFree bytes) := by
  obtain ⟨haudit, hassertion⟩ := accepted_octets_unique_iff Primitives.standard
  constructor
  · intro hunique
    have hfree := (hassertion _ _ _ _ IdentityAssertion.verify_sampleAssertion).mp hunique
    have htext : LetterFree IdentityAssertion.sampleSignatureText :=
      hfree _ IdentityAssertion.fromSlice_sampleAssertion
        ⟨"ecdsa-p256", IdentityAssertion.sampleAssertionKey.keyId,
          IdentityAssertion.sampleSignatureText⟩ List.mem_cons_self
    exact absurd htext (by decide +kernel)
  · obtain ⟨bytes, hverify⟩ := AuditSeal.verify_issuedEvent
    exact ⟨bytes, hverify, haudit _ _ _ _ hverify⟩

end ZeroSecret.Crypto
