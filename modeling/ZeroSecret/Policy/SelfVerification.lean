import ZeroSecret.Crypto.AuditSealRoundTrip
import ZeroSecret.Policy.Service

/-!
# The policy engine accepts its own decisions

The instant of a decision is signed as a text and sent as seconds. The
verifier formats the seconds again, so what was signed is rebuilt only if
reading the text back gives the clock's seconds. The rest of the signed fields
is untouched by what `decide` writes into the response after sealing.
-/

namespace ZeroSecret.Policy

open Crypto Crypto.DecisionSeal
open Json (utf8)

/-! ## Reading an instant back -/

/-- Octets of digits are read as the characters are. -/
theorem decimal_utf8 {cs : List Char} (h : ∀ c ∈ cs, c.isDigit = true) :
    decimal (utf8 cs) = (Nat.ofDigitChars 10 cs 0 : Int) := by
  have hfold : ∀ (cs : List Char) (n : Nat), (∀ c ∈ cs, c.isDigit = true) →
      (utf8 cs).foldl (fun (n : Int) b => n * 10 + (b.toNat - 48 : Int)) n =
        (Nat.ofDigitChars 10 cs n : Int) := by
    intro cs
    induction cs with
    | nil => intro n _; rfl
    | cons c cs ih =>
        intro n hall
        have hc : 48 ≤ c.val.toNat ∧ c.val.toNat ≤ 57 := by
          have hd := hall c List.mem_cons_self
          simpa [Char.isDigit, UInt32.le_iff_toNat_le] using hd
        have hoctet : utf8 (c :: cs) = UInt8.ofNat c.val.toNat :: utf8 cs := by
          rw [utf8, List.flatMap_cons, String.utf8EncodeChar.eq_def]
          simp only [if_pos (show c.val.toNat ≤ 127 by omega)]
          rfl
        have hvalue : (UInt8.ofNat c.val.toNat).toNat = c.val.toNat := by
          rw [UInt8.toNat_ofNat']
          exact Nat.mod_eq_of_lt (by omega)
        rw [hoctet, List.foldl_cons, hvalue, Nat.ofDigitChars_cons,
          ← ih _ fun d hd => hall d (List.mem_cons_of_mem c hd)]
        congr 1
        have hzero : '0'.toNat = 48 := rfl
        have hcn : c.toNat = c.val.toNat := rfl
        push_cast [hzero, hcn, Nat.cast_sub hc.1]
        ring
  exact hfold cs 0 h

theorem decimal_padded (width : Nat) {n : Int} (h0 : 0 ≤ n) :
    decimal (utf8 (Calendar.padded width n)) = n := by
  rw [decimal_utf8 (Calendar.padded_isDigit width h0), Calendar.ofDigitChars_padded _ h0]

/-- The slice between two positions. -/
theorem slice_eq {pre mid post : Bytes} {start stop : Nat} (hstart : pre.length = start)
    (hstop : start + mid.length = stop) :
    ((pre ++ (mid ++ post)).take stop).drop start = mid := by
  subst hstart hstop
  rw [List.take_append, List.drop_append]
  simp

/-- The six numbers of a text with its separators. -/
theorem fields_of_parts (s₁ s₂ s₃ s₄ s₅ s₆ : UInt8) {y m d h i c : Bytes} (ly : y.length = 4)
    (lm : m.length = 2) (ld : d.length = 2) (lh : h.length = 2) (li : i.length = 2)
    (lc : c.length = 2) :
    let t := y ++ ([s₁] ++ (m ++ ([s₂] ++ (d ++ ([s₃] ++ (h ++ ([s₄] ++ (i ++ ([s₅] ++
      (c ++ [s₆]))))))))))
    (t.take 4).drop 0 = y ∧ (t.take 7).drop 5 = m ∧ (t.take 10).drop 8 = d ∧
      (t.take 13).drop 11 = h ∧ (t.take 16).drop 14 = i ∧ (t.take 19).drop 17 = c := by
  intro t
  have hslice : ∀ (pre mid post : Bytes) (start stop : Nat), t = pre ++ (mid ++ post) →
      pre.length = start → start + mid.length = stop → (t.take stop).drop start = mid := by
    intro pre mid post start stop ht hstart hstop
    rw [ht]
    exact slice_eq hstart hstop
  refine ⟨hslice [] y ([s₁] ++ (m ++ ([s₂] ++ (d ++ ([s₃] ++ (h ++ ([s₄] ++ (i ++ ([s₅] ++
      (c ++ [s₆])))))))))) 0 4 rfl rfl (by omega),
    hslice (y ++ [s₁]) m ([s₂] ++ (d ++ ([s₃] ++ (h ++ ([s₄] ++ (i ++ ([s₅] ++ (c ++ [s₆]))))))))
      5 7 ?_ ?_ (by omega),
    hslice (y ++ [s₁] ++ m ++ [s₂]) d ([s₃] ++ (h ++ ([s₄] ++ (i ++ ([s₅] ++ (c ++ [s₆]))))))
      8 10 ?_ ?_ (by omega),
    hslice (y ++ [s₁] ++ m ++ [s₂] ++ d ++ [s₃]) h ([s₄] ++ (i ++ ([s₅] ++ (c ++ [s₆]))))
      11 13 ?_ ?_ (by omega),
    hslice (y ++ [s₁] ++ m ++ [s₂] ++ d ++ [s₃] ++ h ++ [s₄]) i ([s₅] ++ (c ++ [s₆]))
      14 16 ?_ ?_ (by omega),
    hslice (y ++ [s₁] ++ m ++ [s₂] ++ d ++ [s₃] ++ h ++ [s₄] ++ i ++ [s₅]) c [s₆]
      17 19 ?_ ?_ (by omega)⟩
  all_goals
    simp only [t, List.append_assoc, List.length_append, List.length_singleton, ly, lm, ld, lh, li]

/-- **The seconds read out of a formatted instant are the instant**, in the
years 0 to 9999. -/
theorem requestTimeFromRfc3339_rfc3339 {now : Int64} (h0 : -62167219200 ≤ now.toInt)
    (h1 : now.toInt < 253402300800) :
    requestTimeFromRfc3339 (rfc3339FromSeconds now) = now := by
  generalize hs : now.toInt = s at h0 h1
  have hdate := Calendar.civilFromDays_bounds (show -719528 ≤ s / 86400 by omega)
    (show s / 86400 < 2932897 by omega)
  have hhour : 0 ≤ s % 86400 / 3600 ∧ s % 86400 / 3600 < 10 ^ 2 := by omega
  have hminute : 0 ≤ s % 86400 % 3600 / 60 ∧ s % 86400 % 3600 / 60 < 10 ^ 2 := by omega
  have hsecond : 0 ≤ s % 86400 % 60 ∧ s % 86400 % 60 < 10 ^ 2 := by omega
  obtain ⟨ly, -⟩ := utf8_padded (by decide) hdate.1
  obtain ⟨lm, -⟩ := utf8_padded (by decide) hdate.2.1
  obtain ⟨ld, -⟩ := utf8_padded (by decide) hdate.2.2
  obtain ⟨lh, -⟩ := utf8_padded (show 0 < 2 by decide) hhour
  obtain ⟨li, -⟩ := utf8_padded (show 0 < 2 by decide) hminute
  obtain ⟨ls, -⟩ := utf8_padded (show 0 < 2 by decide) hsecond
  obtain ⟨fy, fm, fd, fh, fi, fs⟩ := fields_of_parts 0x2D 0x2D 0x54 0x3A 0x3A 0x5A ly lm ld lh li ls
  unfold requestTimeFromRfc3339 rfc3339FromSeconds
  rw [hs, octets_rfc3339]
  simp only [fy, fm, fd, fh, fi, fs]
  rw [decimal_padded 4 hdate.1.1, decimal_padded 2 hdate.2.1.1, decimal_padded 2 hdate.2.2.1,
    decimal_padded 2 hhour.1, decimal_padded 2 hminute.1, decimal_padded 2 hsecond.1,
    Calendar.daysFromCivil_civilFromDays]
  have hsum : s / 86400 * 86400 + s % 86400 / 3600 * 3600 + s % 86400 % 3600 / 60 * 60 +
      s % 86400 % 60 = s := by omega
  rw [hsum, ← hs, Int64.ofInt_toInt]

/-! ## Acceptance -/

/-- The key of a new engine is the key of its sealer. -/
theorem PolicyEngine.new_eq_ok {P : Primitives} {pdp : Pdp} {publicKey : Bytes}
    {engine : PolicyEngine}
    (h : PolicyEngine.new pdp (.ofPublicKey P publicKey) = .ok engine) :
    engine = ⟨pdp, .ofPublicKey P publicKey, ⟨keyIdFromPublicKey P publicKey, publicKey⟩⟩ := by
  unfold PolicyEngine.new DecisionSealer.acceptedVerifyingKey acceptVerifyingKey at h
  rw [if_neg (not_not_intro rfl)] at h
  split at h
  · cases h
  · exact (Except.ok.inj h).symm

theorem PolicyEngine.new_ok {P : Primitives} (pdp : Pdp) {publicKey : Bytes}
    (h : ¬ (publicKey.length ≠ 65 ∨ publicKey.head? ≠ some 0x04)) :
    PolicyEngine.new pdp (.ofPublicKey P publicKey) =
      .ok ⟨pdp, .ofPublicKey P publicKey, ⟨keyIdFromPublicKey P publicKey, publicKey⟩⟩ := by
  unfold PolicyEngine.new DecisionSealer.acceptedVerifyingKey acceptVerifyingKey
  rw [if_neg (not_not_intro rfl)]
  unfold DecisionSealer.ofPublicKey
  rw [if_neg h]
  rfl

/-- What a call that answered has sealed. -/
theorem PolicyEngine.decide_inv {P : Primitives} {engine : PolicyEngine} {order : Enumeration}
    {hsm : Digest → Option Bytes} {now : Int64} {r : DecisionRequest} {d : DecisionResponse}
    (h : engine.decide P order hsm now r = .ok d) :
    ∃ fields signature,
      decisionFields (engine.pdp.decide P order r) (rfc3339FromSeconds now) = .ok fields ∧
      hsm (P.sha256 (signedMessage fields)) = some signature ∧
      d = { engine.pdp.decide P order r with
        issuedAt := some ⟨requestTimeFromRfc3339 (rfc3339FromSeconds now), 0⟩
        decisionSignature := signature
        decisionSignatureKeyId := engine.sealer.keyId } := by
  unfold PolicyEngine.decide at h
  dsimp only at h
  split at h
  · cases h
  · rename_i fields hf
    unfold DecisionSealer.seal at h
    cases hs : hsm (P.sha256 (signedMessage fields)) with
    | none =>
        rw [hs] at h
        cases h
    | some signature =>
        rw [hs] at h
        exact ⟨fields, signature, hf, hs, (Except.ok.inj h).symm⟩

/-- The seal is no part of what is sealed. -/
theorem decisionFields_sealed (d : DecisionResponse) (issuedAt : Option ProtoTimestamp)
    (signature : Bytes) (keyId issuedAtStr : String) :
    decisionFields { d with
      issuedAt := issuedAt
      decisionSignature := signature
      decisionSignatureKeyId := keyId } issuedAtStr = decisionFields d issuedAtStr := rfl

/-- **The policy engine accepts its own decisions.** Whatever `decide` answers
between 1970 and the end of the year 9999 verifies: its instant formats back
to the signed text, its fields are the sealed ones. -/
theorem verifyDecision_of_decide (P : Primitives) (publicKey : Bytes) (pdp : Pdp)
    (engine : PolicyEngine) (hsm : Digest → Option Bytes) (order : Enumeration) (now : Int64)
    (request : DecisionRequest) (d : DecisionResponse)
    (hnew : PolicyEngine.new pdp (.ofPublicKey P publicKey) = .ok engine)
    (hsigns : AuditSeal.HsmSigns P publicKey hsm)
    (hepoch : 0 ≤ now.toInt) (hyear : (Calendar.civilFromDays (now.toInt / 86400)).1 ≤ 9999)
    (h : engine.decide P order hsm now request = .ok d) :
    engine.verifyDecision P (some d) = ⟨true, ""⟩ ∧
    ∃ ts fields, d.issuedAt = some ts ∧
      rfc3339FromSeconds ts.seconds = rfc3339FromSeconds now ∧
      decisionFields (pdp.decide P order request) (rfc3339FromSeconds now) = .ok fields ∧
      decisionFields d (rfc3339FromSeconds ts.seconds) = .ok fields ∧
      hsm (P.sha256 (signedMessage fields)) = some d.decisionSignature := by
  obtain rfl := PolicyEngine.new_eq_ok hnew
  obtain ⟨fields, signature, hf, hs, rfl⟩ := PolicyEngine.decide_inv h
  obtain ⟨h64, hvalid⟩ := hsigns _ _ hs
  have hlate : now.toInt < 253402300800 := by
    have hdays := Calendar.lt_of_year_le hyear
    omega
  have hnow := requestTimeFromRfc3339_rfc3339 (by omega) hlate
  rw [hnow] at h ⊢
  have hrebuilt : decisionFields { pdp.decide P order request with
      issuedAt := some ⟨now, 0⟩
      decisionSignature := signature
      decisionSignatureKeyId := keyIdFromPublicKey P publicKey } (rfc3339FromSeconds now) =
      .ok fields := (decisionFields_sealed _ _ _ _ _).trans hf
  refine ⟨?_, ⟨now, 0⟩, fields, rfl, rfl, hf, hrebuilt, hs⟩
  have hkey : keyIdFromPublicKey P publicKey ≠ "" := by
    intro hempty
    have hsize := hexEncode_size ((P.sha256 publicKey).val.take 8)
    rw [← keyIdFromPublicKey, hempty, List.length_take, (P.sha256 publicKey).property] at hsize
    cases hsize
  have hsignature : signature ≠ [] := by
    rintro rfl
    cases h64
  have hverify : DecisionSeal.verify P [⟨keyIdFromPublicKey P publicKey, publicKey⟩] fields
      (keyIdFromPublicKey P publicKey) signature = .ok () := by
    unfold DecisionSeal.verify
    rw [if_neg (not_or.mpr ⟨hkey, hsignature⟩), List.find?_cons, beq_self_eq_true]
    exact if_pos hvalid
  unfold PolicyEngine.verifyDecision
  simp only [hrebuilt, DecisionSealer.ofPublicKey, hverify]

/-! ### One decision -/

/-- The nominal request, for a version that is not served. -/
def staleRequest : DecisionRequest := { nominalRequest with policyVersion := "v0" }

def staleSignature : Bytes :=
  (hexDecode ("65af51c7fadbb0cc80067b81bd01444c8364d1e15365f35c95206a38f3e71ca4" ++
    "64ed907f90a8ed14778ac16313983a796042be9fda0fd45f53e28b7c581abe6e")).getD []

def staleDigest : Bytes :=
  (hexDecode "468c96d77540f759500ea1426f7d3fa08b77a130186ba28f499b3d8e72eb4ec7").getD []

/-- An HSM that has signed the refusal of that request and nothing else. -/
def staleHsm (digest : Digest) : Option Bytes :=
  if digest.val = staleDigest then some staleSignature else none

theorem staleHsm_signs : AuditSeal.HsmSigns .standard sampleKey staleHsm := by
  have hv : P256.verifyDigest sampleKey staleDigest staleSignature = true := by
    decide +kernel
  intro m sig h
  unfold staleHsm at h
  split at h
  · rename_i hd
    obtain rfl := Option.some.inj h
    refine ⟨by decide +kernel, ?_⟩
    rw [Primitives.standard_ecdsa, hd, hv]
  · cases h

def staleEngine : PolicyEngine :=
  ⟨.shipped sampleText "v1", .ofPublicKey .standard sampleKey,
    ⟨keyIdFromPublicKey .standard sampleKey, sampleKey⟩⟩

theorem staleEngine_new : PolicyEngine.new (.shipped sampleText "v1")
    (.ofPublicKey .standard sampleKey) = .ok staleEngine :=
  PolicyEngine.new_ok _ (by decide +kernel)

theorem staleRequest_decided : ∃ d,
    staleEngine.decide .standard .asWritten staleHsm 1787500805 staleRequest = .ok d := by
  have hresponse : staleEngine.pdp.decide .standard .asWritten staleRequest =
      deny ["policy_version_indisponible"] (decisionHash .standard staleRequest) "v1" :=
    Pdp.decide_unserved (by decide +kernel)
  have hvalid : timestampValid (octets (rfc3339FromSeconds 1787500805)) = true := by
    decide +kernel
  obtain ⟨fields, hf⟩ : ∃ fields, decisionFields (deny ["policy_version_indisponible"]
      (decisionHash .standard staleRequest) "v1") (rfc3339FromSeconds 1787500805) =
        .ok fields := by
    unfold decisionFields
    rw [Timestamp.new_eq_ok hvalid]
    exact ⟨_, rfl⟩
  have hdigest : ((decisionFields (deny ["policy_version_indisponible"]
      (decisionHash .standard staleRequest) "v1") (rfc3339FromSeconds 1787500805)).toOption.map
        fun f => (Primitives.standard.sha256 (signedMessage f)).val) = some staleDigest := by
    rw [Primitives.standard_eq_evaluated]
    decide +kernel
  rw [hf] at hdigest
  have hsigned : staleHsm (Primitives.standard.sha256 (signedMessage fields)) =
      some staleSignature := if_pos (Option.some.inj hdigest)
  rw [← hresponse] at hf
  exact ⟨_, PolicyEngine.decide_eq_ok hf hsigned⟩

theorem verifyDecision_of_decide_stale : ∃ d,
    staleEngine.decide .standard .asWritten staleHsm 1787500805 staleRequest = .ok d ∧
      staleEngine.verifyDecision .standard (some d) = ⟨true, ""⟩ := by
  obtain ⟨d, hd⟩ := staleRequest_decided
  exact ⟨d, hd, (verifyDecision_of_decide .standard sampleKey (.shipped sampleText "v1")
    staleEngine staleHsm .asWritten 1787500805 staleRequest d staleEngine_new staleHsm_signs
    (by decide) (by decide) hd).1⟩

end ZeroSecret.Policy
