import ZeroSecret.Base.Slices
import ZeroSecret.Webauthn.FirstItem
import ZeroSecret.Webauthn.RegistrationOutcome

/-!
# What a registration is parsed into

`parse_authenticator_data` read by read: no index and no range leaves the
octets, whatever they are. What it takes apart is what an authenticator put
together, and the key of a registration is one that authentication accepts.
-/

namespace ZeroSecret.Webauthn

open Crypto Crypto.AuthenticatorProof
open Fallible

/-! ## Read by read

`none` is a panic, as in `Slice`. -/

def parseAttestedCredentialDataChecked (L : Libraries) (rest : Bytes) :
    Option (Except RegistrationError AttestedCredentialData) :=
  if rest.length < 18 then some (.error .malformedAuthenticatorData)
  else do
    let aaguid ← Slice.copyFromSlice 16 (← Slice.range rest 0 16)
    let high ← Slice.index rest 16
    let low ← Slice.index rest 17
    -- `checked_add`, then `filter`
    match (Slice.add 18 (BigEndian.read [high, low])).filter (· ≤ rest.length) with
    | none => some (.error .malformedAuthenticatorData)
    | some credIdEnd => do
        let credentialId ← Slice.range rest 18 credIdEnd
        let keyBytes ← Slice.range rest credIdEnd rest.length
        match L.cborFromReader keyBytes with
        | none => some (.error .malformedAuthenticatorData)
        | some (_, consumed) => do
            let publicKeyCbor ← Slice.range keyBytes 0 consumed
            some (.ok ⟨aaguid, credentialId, publicKeyCbor⟩)

def parseAuthenticatorDataChecked (L : Libraries) (data : Bytes) :
    Option (Except RegistrationError ParsedAuthenticatorData) :=
  if data.length < 37 then some (.error .malformedAuthenticatorData)
  else do
    let rpIdHash ← Slice.copyFromSlice 32 (← Slice.range data 0 32)
    let flags ← Slice.index data 32
    let a ← Slice.index data 33
    let b ← Slice.index data 34
    let c ← Slice.index data 35
    let d ← Slice.index data 36
    if flags &&& flagAttestedCredData ≠ 0 then
      match ← parseAttestedCredentialDataChecked L (← Slice.range data 37 data.length) with
      | .error e => some (.error e)
      | .ok cred => some (.ok ⟨rpIdHash, flags, u32FromBeBytes a b c d, some cred⟩)
    else some (.ok ⟨rpIdHash, flags, u32FromBeBytes a b c d, none⟩)

variable {L : Libraries} {WellFormedItem : Bytes → Prop}

theorem parseAttestedCredentialDataChecked_eq
    (hcbor : ConsumesFirstItem L.cborFromReader WellFormedItem) (rest : Bytes) :
    parseAttestedCredentialDataChecked L rest = some (parseAttestedCredentialData L rest) := by
  unfold parseAttestedCredentialDataChecked parseAttestedCredentialData
  by_cases hshort : rest.length < 18
  · rw [if_pos hshort, require, if_neg (by simpa using hshort)]
    rfl
  · have htake : (rest.take 16).length = 16 := by
      rw [List.length_take]
      omega
    have hlen : (rest.drop 16).take 2 = [rest[16], rest[17]] := by
      rw [List.drop_eq_getElem_cons (by omega), List.drop_eq_getElem_cons (by omega)]
      rfl
    have hread := BigEndian.read_lt [rest[16], rest[17]]
    rw [List.length_cons, List.length_singleton] at hread
    rw [if_neg hshort, Slice.range_zero (by omega), Slice.index_of_lt (by omega),
      Slice.index_of_lt (by omega), hlen, require, if_pos (by simpa using hshort)]
    simp only [Option.bind_eq_bind, Option.bind_some, Slice.copyFromSlice_of_length htake, ok_bind]
    generalize BigEndian.read [rest[16], rest[17]] = credIdLen at hread ⊢
    rw [Slice.add_of_lt (by omega)]
    by_cases hfits : 18 + credIdLen ≤ rest.length
    · rw [Option.filter_some_pos (by simpa using hfits), require, if_pos (by simpa using hfits)]
      simp only [Slice.range_of_le (Nat.le_add_right 18 credIdLen) hfits, Slice.range_length hfits,
        Option.bind_some, ok_bind, Nat.add_sub_cancel_left]
      cases hread' : L.cborFromReader (rest.drop (18 + credIdLen)) with
      | none => rfl
      | some item =>
          obtain ⟨v, consumed⟩ := item
          have hle := hcbor.consumed_le _ _ _ hread'
          simp only [okOr_some, ok_bind, Slice.range_zero hle, Option.bind_some]
    · rw [Option.filter_some_neg (by simpa using hfits), require, if_neg (by simpa using hfits)]
      rfl

/-- The fixed part and what follows it. -/
theorem drop_32 {data : Bytes} (h : 37 ≤ data.length) :
    data.drop 32 = data[32] :: data[33] :: data[34] :: data[35] :: data[36] :: data.drop 37 := by
  rw [List.drop_eq_getElem_cons (by omega), List.drop_eq_getElem_cons (by omega),
    List.drop_eq_getElem_cons (by omega), List.drop_eq_getElem_cons (by omega),
    List.drop_eq_getElem_cons (by omega)]

theorem parseAuthenticatorData_short {data : Bytes} (h : data.length < 37) :
    parseAuthenticatorData L data = .error .malformedAuthenticatorData := by
  unfold parseAuthenticatorData
  split
  · rename_i heq
    have hlen := congrArg List.length heq
    simp only [List.length_drop, List.length_cons] at hlen
    omega
  · rfl

/-- Every read is in range. -/
theorem parseAuthenticatorDataChecked_eq
    (hcbor : ConsumesFirstItem L.cborFromReader WellFormedItem) (data : Bytes) :
    parseAuthenticatorDataChecked L data = some (parseAuthenticatorData L data) := by
  unfold parseAuthenticatorDataChecked
  by_cases hshort : data.length < 37
  · rw [if_pos hshort, parseAuthenticatorData_short hshort]
  · have htake : (data.take 32).length = 32 := by
      rw [List.length_take]
      omega
    rw [if_neg hshort, Slice.range_zero (by omega), Slice.index_of_lt (by omega),
      Slice.index_of_lt (by omega), Slice.index_of_lt (by omega), Slice.index_of_lt (by omega),
      Slice.index_of_lt (by omega), Slice.range_length (by omega), parseAuthenticatorData,
      drop_32 (by omega)]
    simp only [Option.bind_eq_bind, Option.bind_some, Slice.copyFromSlice_of_length htake,
      parseAttestedCredentialDataChecked_eq hcbor]
    split
    · cases parseAttestedCredentialData L (data.drop 37) with
      | error e => rfl
      | ok cred => rfl
    · rfl

/-! ## What an authenticator puts together -/

/-- `aaguid(16) ‖ credentialIdLength(2) ‖ credentialId ‖ credentialPublicKey ‖
extensions`. -/
def attestedCredentialData (aaguid credentialId publicKeyCbor extensions : Bytes) : Bytes :=
  aaguid ++ (BigEndian.write 2 credentialId.length ++
    (credentialId ++ (publicKeyCbor ++ extensions)))

/-- `rpIdHash(32) ‖ flags(1) ‖ signCount(4)` and what is attested. -/
def authenticatorData (rpIdHash : Bytes) (flags : UInt8) (signCount : UInt32) (rest : Bytes) :
    Bytes :=
  rpIdHash ++ flags :: (BigEndian.write 4 signCount.toNat ++ rest)

theorem u32FromBeBytes_eq (a b c d : UInt8) :
    u32FromBeBytes a b c d = UInt32.ofNat (BigEndian.read [a, b, c, d]) := by
  simp [u32FromBeBytes, BigEndian.read]

theorem parseAttestedCredentialData_assembled
    (hcbor : ConsumesFirstItem L.cborFromReader WellFormedItem)
    {aaguid credentialId publicKeyCbor : Bytes} (haaguid : aaguid.length = 16)
    (hid : credentialId.length < 65536) (hkey : WellFormedItem publicKeyCbor)
    (extensions : Bytes) :
    parseAttestedCredentialData L
        (attestedCredentialData aaguid credentialId publicKeyCbor extensions) =
      .ok ⟨aaguid, credentialId, publicKeyCbor⟩ := by
  obtain ⟨v, hread⟩ := hcbor.reads publicKeyCbor extensions hkey
  have hwidth : (BigEndian.write 2 credentialId.length).length = 2 := BigEndian.length_write _ _
  have hdrop16 : (attestedCredentialData aaguid credentialId publicKeyCbor extensions).drop 16 =
      BigEndian.write 2 credentialId.length ++ (credentialId ++ (publicKeyCbor ++ extensions)) :=
    List.drop_left' haaguid
  have hdrop18 : (attestedCredentialData aaguid credentialId publicKeyCbor extensions).drop 18 =
      credentialId ++ (publicKeyCbor ++ extensions) := by
    rw [show 18 = 16 + 2 from rfl, ← List.drop_drop, hdrop16, List.drop_left' hwidth]
  have hdropKey : (attestedCredentialData aaguid credentialId publicKeyCbor extensions).drop
      (18 + credentialId.length) = publicKeyCbor ++ extensions := by
    rw [← List.drop_drop, hdrop18, List.drop_left]
  have hlength : (attestedCredentialData aaguid credentialId publicKeyCbor extensions).length =
      18 + credentialId.length + (publicKeyCbor.length + extensions.length) := by
    simp only [attestedCredentialData, List.length_append, BigEndian.length_write, haaguid]
    omega
  have htake16 : (attestedCredentialData aaguid credentialId publicKeyCbor extensions).take 16 =
      aaguid :=
    List.take_left' haaguid
  have hlong : decide (18 ≤ (attestedCredentialData aaguid credentialId publicKeyCbor
      extensions).length) = true := decide_eq_true (by omega)
  have hfits : decide (18 + credentialId.length ≤ (attestedCredentialData aaguid credentialId
      publicKeyCbor extensions).length) = true := decide_eq_true (by omega)
  unfold parseAttestedCredentialData
  rw [hdrop16, List.take_left' hwidth, BigEndian.read_write (by simpa using hid)]
  simp only [require, hlong, hfits, if_true, ok_bind, hdropKey, hread, okOr_some, hdrop18, htake16,
    List.take_left]

/-- **What was put together is taken apart.** -/
theorem parseAuthenticatorData_assembled
    (hcbor : ConsumesFirstItem L.cborFromReader WellFormedItem)
    {rpIdHash : Bytes} {flags : UInt8} {aaguid credentialId publicKeyCbor : Bytes}
    (hrp : rpIdHash.length = 32) (hflags : flags &&& flagAttestedCredData ≠ 0)
    (haaguid : aaguid.length = 16) (hid : credentialId.length < 65536)
    (hkey : WellFormedItem publicKeyCbor) (signCount : UInt32) (extensions : Bytes) :
    parseAuthenticatorData L (authenticatorData rpIdHash flags signCount
        (attestedCredentialData aaguid credentialId publicKeyCbor extensions)) =
      .ok ⟨rpIdHash, flags, signCount, some ⟨aaguid, credentialId, publicKeyCbor⟩⟩ := by
  have hcount : ∃ a b c d, BigEndian.write 4 signCount.toNat = [a, b, c, d] :=
    ⟨_, _, _, _, rfl⟩
  obtain ⟨a, b, c, d, hwrite⟩ := hcount
  have hsign : u32FromBeBytes a b c d = signCount := by
    rw [u32FromBeBytes_eq, ← hwrite, BigEndian.read_write (by simpa using signCount.toNat_lt),
      UInt32.ofNat_toNat]
  unfold parseAuthenticatorData authenticatorData
  rw [List.drop_left' hrp, hwrite]
  simp only [List.cons_append, List.nil_append]
  rw [if_pos hflags, parseAttestedCredentialData_assembled hcbor haaguid hid hkey, ok_bind, hsign,
    List.take_left' hrp]

/-! ## The key of a registration -/

theorem failsWith_parseAssertionAuthData (data : Bytes) :
    FailsWith (· ≠ AuthenticationError.malformedRegisteredKey) (parseAssertionAuthData data) := by
  intro e h
  unfold parseAssertionAuthData at h
  split at h
  · cases h
  · rw [← Except.error.inj h]
    exact fun h => (by cases h)

/-- Authentication finds fault with a key only when `accept_key` does. -/
theorem failsWith_verifyAuthenticationCeremony {V : Verifiers} {read : Bytes → Option ClientData}
    {input : AuthenticationCeremonyInput} {key : AcceptedKey}
    (hkey : acceptKey suiteV1
      ⟨input.credential.publicKeyAlgorithm, input.credential.publicKeyRaw⟩ = .ok key) :
    FailsWith (· ≠ AuthenticationError.malformedRegisteredKey)
      (verifyAuthenticationCeremony V read input) := by
  unfold verifyAuthenticationCeremony
  rw [hkey]
  refine failsWith_bind (failsWith_require (fun h => (by cases h)) _) fun _ => ?_
  refine failsWith_bind (failsWith_mapError (fun _ h => (by cases h)) _) fun _ => ?_
  refine failsWith_bind (failsWith_parseAssertionAuthData _) fun parsed => ?_
  refine failsWith_bind (failsWith_require (fun h => (by cases h)) _) fun _ => ?_
  refine failsWith_bind (failsWith_require (fun h => (by cases h)) _) fun _ => ?_
  refine failsWith_bind (failsWith_require (fun h => (by cases h)) _) fun _ => ?_
  refine failsWith_bind (failsWith_ok _ key) fun key => ?_
  exact failsWith_bind (failsWith_mapError (fun _ h => (by cases h)) _) fun _ => failsWith_ok _ _

/-- The key of an outcome is one `accept_key` has accepted. -/
theorem acceptKey_of_registered {input : RegistrationCeremonyInput} {outcome : RegistrationOutcome}
    (h : verifyRegistrationCeremony L input = .ok outcome) :
    ∃ key, acceptKey suiteV1 ⟨outcome.publicKeyAlgorithm, outcome.publicKeyRaw⟩ = .ok key := by
  obtain ⟨parts, hr, rfl⟩ := verifyRegistrationCeremony_eq_ok_iff.mp h
  exact ⟨parts.key, hr.key⟩

/-- **Parsing a registration.** No octet string makes `parse_authenticator_data`
read outside of it; it takes apart what was put together, whatever key and
extensions stand in it; and the key of a registration is never found malformed
afterwards. -/
theorem registration_parsed (L : Libraries) (WellFormedItem : Bytes → Prop)
    (hcbor : ConsumesFirstItem L.cborFromReader WellFormedItem) :
    (∀ data, parseAuthenticatorDataChecked L data = some (parseAuthenticatorData L data)) ∧
    (∀ (rpIdHash : Bytes) (flags : UInt8) (signCount : UInt32)
        (aaguid credentialId publicKeyCbor extensions : Bytes),
      rpIdHash.length = 32 → flags &&& flagAttestedCredData ≠ 0 → aaguid.length = 16 →
      credentialId.length < 65536 → WellFormedItem publicKeyCbor →
      parseAuthenticatorDataChecked L (authenticatorData rpIdHash flags signCount
          (attestedCredentialData aaguid credentialId publicKeyCbor extensions)) =
        some (.ok ⟨rpIdHash, flags, signCount, some ⟨aaguid, credentialId, publicKeyCbor⟩⟩)) ∧
    ∀ (input : RegistrationCeremonyInput) (outcome : RegistrationOutcome),
      verifyRegistrationCeremony L input = .ok outcome →
      ∀ (V : Verifiers) (read : Bytes → Option ClientData) (login : AuthenticationCeremonyInput),
        login.credential.publicKeyAlgorithm = outcome.publicKeyAlgorithm →
        login.credential.publicKeyRaw = outcome.publicKeyRaw →
        verifyAuthenticationCeremony V read login ≠ .error .malformedRegisteredKey := by
  refine ⟨parseAuthenticatorDataChecked_eq hcbor, ?_, ?_⟩
  · intro rpIdHash flags signCount aaguid credentialId publicKeyCbor extensions hrp hflags haaguid
      hid hkey
    rw [parseAuthenticatorDataChecked_eq hcbor,
      parseAuthenticatorData_assembled hcbor hrp hflags haaguid hid hkey]
  · intro input outcome h V read login halgorithm hraw hmalformed
    obtain ⟨key, hkey⟩ := acceptKey_of_registered h
    rw [← halgorithm, ← hraw] at hkey
    exact failsWith_verifyAuthenticationCeremony hkey _ hmalformed rfl

/-- `{1: 1, 3: -8, -1: 6, -2: …}`. -/
def ed25519CoseKey : Bytes :=
  [0xa4, 0x01, 0x01, 0x03, 0x27, 0x20, 0x06, 0x21, 0x58, 0x20] ++ List.replicate 32 0x07

theorem ed25519CoseKey_readWhole : ReadWhole ed25519CoseKey := ⟨_, rfl⟩

/-- An Ed25519 key with an empty map of extensions behind it. -/
theorem registration_parsed_ed25519 :
    parseAuthenticatorDataChecked .standard (authenticatorData (List.replicate 32 0x0f) 0xc1 7
        (attestedCredentialData (List.replicate 16 0) [1, 2, 3, 4] ed25519CoseKey [0xa0])) =
      some (.ok ⟨List.replicate 32 0x0f, 0xc1, 7,
        some ⟨List.replicate 16 0, [1, 2, 3, 4], ed25519CoseKey⟩⟩) :=
  (registration_parsed .standard ReadWhole fromReader_consumesFirstItem).2.1 _ _ _ _ _ _ _
    rfl (by decide) rfl (by decide) ed25519CoseKey_readWhole

end ZeroSecret.Webauthn
