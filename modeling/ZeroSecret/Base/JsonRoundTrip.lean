import Mathlib.Tactic
import ZeroSecret.Base.Json

/-!
# JSON texts read back

`readValue_write` is the round trip, stated with the text that follows the
value so that it composes; `fromSlice_toVec` is its form on octets, and
injectivity of the writer is a corollary. No bound on the nesting is assumed:
the fuel the reader is started with is the length of the text, and every
recursive call is on a strictly shorter written piece.
-/

namespace Json

/-! ## String literals -/

theorem hexVal_digitChar {d : Nat} (h : d < 16) : hexVal d.digitChar = some d := by
  interval_cases d <;> rfl

theorem readUnicode_control {n : Nat} (h : n < 0x20) (rest : List Char) :
    readUnicode ('0' :: '0' :: (n / 16).digitChar :: (n % 16).digitChar :: rest) =
      some (Char.ofNat n, rest) := by
  have h0 : hexVal '0' = some 0 := rfl
  have h1 := hexVal_digitChar (d := n / 16) (by omega)
  have h2 := hexVal_digitChar (d := n % 16) (by omega)
  have hn : n / 16 * 16 + n % 16 = n := by omega
  have hhi : ¬ (0xD800 ≤ n ∧ n ≤ 0xDBFF) := by omega
  have hlo : ¬ (0xDC00 ≤ n ∧ n ≤ 0xDFFF) := by omega
  simp [readUnicode, readHex4, h0, h1, h2, hn, hhi, hlo]

theorem readChar_plain {c : Char} (hq : c ≠ '\\') (hc : ¬ c.toNat < 0x20)
    (rest : List Char) : readChar (c :: rest) = some (c, rest) := by
  unfold readChar
  split <;> simp_all

/-- Reading an escaped character gives it back. -/
theorem readChar_escapeChar (c : Char) (rest : List Char) :
    readChar (escapeChar c ++ rest) = some (c, rest) := by
  unfold escapeChar
  split_ifs with h1 h2 h3 h4 h5 h6 h7 h8
  · subst h1; rfl
  · subst h2; rfl
  · subst h3; rfl
  · subst h4; rfl
  · subst h5; rfl
  · subst h6; rfl
  · subst h7; rfl
  · show readUnicode ('0' :: '0' :: _ :: _ :: rest) = _
    rw [readUnicode_control h8, Char.ofNat_toNat]
  · exact readChar_plain h2 h8 rest

theorem escapeChar_head_ne_quote (c : Char) :
    ∃ d ds, escapeChar c = d :: ds ∧ d ≠ '"' := by
  unfold escapeChar
  split_ifs with h1
  all_goals exact ⟨_, _, rfl, by first | decide | exact h1⟩

/-- **String literals read back**, whatever follows the closing quote. -/
theorem readStr_escape : ∀ (cs rest : List Char) (n : Nat), cs.length ≤ n →
    readStr n (escape cs ++ '"' :: rest) = some (cs, rest)
  | [], rest, n, _ => by cases n <;> rfl
  | c :: cs, rest, 0, h => by simp at h
  | c :: cs, rest, n + 1, h => by
      have ih := readStr_escape cs rest n (by simpa using h)
      obtain ⟨d, ds, hd, hne⟩ := escapeChar_head_ne_quote c
      have hsplit : escape (c :: cs) ++ '"' :: rest =
          escapeChar c ++ (escape cs ++ '"' :: rest) := by
        simp [escape]
      have hr := readChar_escapeChar c (escape cs ++ '"' :: rest)
      rw [hsplit]
      rw [hd, List.cons_append] at hr ⊢
      rw [readStr]
      · simp [hr, ih]
      · simpa using hne

/-! ## Numbers -/

/-- The text after a number does not continue it. -/
def NumEnds (rest : List Char) : Prop := rest.head?.any numTail = false

theorem toDigits_all_digit (n : Nat) :
    ∀ c ∈ Nat.toDigits 10 n, c.isDigit = true := fun _ hc =>
  Nat.isDigit_of_mem_toDigits (by omega) (by omega) hc

theorem takeWhile_digits {ds rest : List Char} (hds : ∀ c ∈ ds, c.isDigit = true)
    (hrest : NumEnds rest) :
    (ds ++ rest).takeWhile Char.isDigit = ds ∧
      (ds ++ rest).dropWhile Char.isDigit = rest := by
  have hr : rest.takeWhile Char.isDigit = [] ∧ rest.dropWhile Char.isDigit = rest := by
    cases rest with
    | nil => exact ⟨rfl, rfl⟩
    | cons c cs =>
        have hc : c.isDigit = false := by
          simp [NumEnds, numTail] at hrest
          exact hrest.1.1.1
        exact ⟨by simp [hc], by simp [hc]⟩
  constructor
  · rw [List.takeWhile_append_of_pos hds, hr.1, List.append_nil]
  · rw [List.dropWhile_append_of_pos hds, hr.2]

/-- A decimal numeral has no leading zero unless it is `0`. -/
theorem toDigits_head_zero {n : Nat} (h : (Nat.toDigits 10 n).head? = some '0') :
    Nat.toDigits 10 n = ['0'] := by
  induction n using Nat.strongRecOn with
  | ind n ih =>
      by_cases hlt : n < 10
      · rw [Nat.toDigits_of_lt_base hlt] at h ⊢
        interval_cases n <;> simp_all [Nat.digitChar]
      · rw [Nat.toDigits_of_base_le (by omega) (by omega)] at h
        have hne : Nat.toDigits 10 (n / 10) ≠ [] := Nat.toDigits_ne_nil
        have hh : (Nat.toDigits 10 (n / 10)).head? = some '0' := by
          rwa [List.head?_append_of_ne_nil _ hne] at h
        have hz := ih (n / 10) (by omega) hh
        -- a quotient printed as `0` is zero, against `10 ≤ n`
        have hv := Nat.ofDigitChars_ten_toDigits (n := n / 10)
        rw [hz] at hv
        have : Nat.ofDigitChars 10 ['0'] 0 = 0 := rfl
        omega

theorem readNat_toDigits (n : Nat) {rest : List Char} (hrest : NumEnds rest) :
    readNat (Nat.toDigits 10 n ++ rest) = some (n, rest) := by
  obtain ⟨ht, hd⟩ := takeWhile_digits (toDigits_all_digit n) hrest
  have hz : ¬ ((Nat.toDigits 10 n).head? = some '0' ∧ Nat.toDigits 10 n ≠ ['0']) :=
    fun h => h.2 (toDigits_head_zero h.1)
  have hne : Nat.toDigits 10 n ≠ [] := Nat.toDigits_ne_nil
  have hany : ¬ (rest.head?.any numTail = true) := by rw [hrest]; decide
  unfold readNat
  simp only [ht, hd]
  rw [if_neg hne, if_neg hz, if_neg hany, Nat.ofDigitChars_ten_toDigits]

theorem toDigits_cons (n : Nat) :
    ∃ d ds, Nat.toDigits 10 n = d :: ds ∧ d.isDigit = true := by
  cases h : Nat.toDigits 10 n with
  | nil => exact absurd h Nat.toDigits_ne_nil
  | cons d ds => exact ⟨d, ds, rfl, toDigits_all_digit n d (by simp [h])⟩

theorem readNum_writeNum (i : Int) {rest : List Char} (hrest : NumEnds rest) :
    readNum (writeNum i ++ rest) = some (i, rest) := by
  cases i with
  | ofNat n =>
      obtain ⟨d, ds, hds, hd⟩ := toDigits_cons n
      have hr := readNat_toDigits n hrest
      have hne : d ≠ '-' := by rintro rfl; simp at hd
      rw [writeNum]
      rw [hds, List.cons_append] at hr ⊢
      unfold readNum
      split
      · rename_i heq
        simp_all
      · simp [hr]
  | negSucc n =>
      have hr := readNat_toDigits (n + 1) hrest
      simp [writeNum, readNum, hr, Int.negSucc_eq]


/-! ## Values -/

theorem skipBlanks_cons {c : Char} (h : isBlank c = false) (cs : List Char) :
    skipBlanks (c :: cs) = c :: cs := by
  simp [skipBlanks, h]

theorem digit_not_blank {d : Char} (hd : d.isDigit = true) : isBlank d = false := by
  by_contra hb
  simp only [isBlank, Bool.or_eq_true, decide_eq_true_eq, Bool.not_eq_false] at hb
  rcases hb with ((rfl | rfl) | rfl) | rfl <;> simp at hd

/-- The first character of a written value: never a blank, never a closing
bracket, so the reader commits to an element. -/
theorem write_head (v : Json) : ∃ d ds, v.write = d :: ds ∧
    isBlank d = false ∧ d ≠ ']' ∧ d ≠ '}' := by
  cases v with
  | null => exact ⟨_, _, by rw [write], by decide, by decide, by decide⟩
  | bool b => cases b <;> exact ⟨_, _, by rw [write], by decide, by decide, by decide⟩
  | num i =>
      cases i with
      | ofNat n =>
          obtain ⟨d, ds, hds, hd⟩ := toDigits_cons n
          refine ⟨d, ds, by rw [write, writeNum, hds], digit_not_blank hd, ?_, ?_⟩
          · rintro rfl; simp at hd
          · rintro rfl; simp at hd
      | negSucc n => exact ⟨_, _, by rw [write, writeNum], by decide, by decide, by decide⟩
  | str s => exact ⟨_, _, by rw [write, writeStr], by decide, by decide, by decide⟩
  | arr xs => exact ⟨_, _, by rw [write], by decide, by decide, by decide⟩
  | obj kvs => exact ⟨_, _, by rw [write], by decide, by decide, by decide⟩

theorem readStr_writeStr (s : String) (rest : List Char) :
    readStr (escape s.toList ++ '"' :: rest).length (escape s.toList ++ '"' :: rest) =
      some (s.toList, rest) := by
  apply readStr_escape
  have hlen : ∀ cs : List Char, cs.length ≤ (escape cs).length := by
    intro cs
    induction cs with
    | nil => simp
    | cons c cs ih =>
        obtain ⟨d, ds, hd, -⟩ := escapeChar_head_ne_quote c
        simp only [escape, List.flatMap_cons, List.length_append, hd, List.length_cons]
        simp only [escape] at ih
        omega
  have := hlen s.toList
  simp only [List.length_append]
  omega

theorem writeNum_head (i : Int) : ∃ d ds, writeNum i = d :: ds ∧
    (d.isDigit = true ∨ d = '-') := by
  cases i with
  | ofNat n =>
      obtain ⟨d, ds, hds, hd⟩ := toDigits_cons n
      exact ⟨d, ds, by rw [writeNum, hds], Or.inl hd⟩
  | negSucc n => exact ⟨_, _, by rw [writeNum], Or.inr rfl⟩

theorem readValue_num (i : Int) {rest : List Char} (hrest : NumEnds rest) (n : Nat) :
    readValue (n + 1) (writeNum i ++ rest) = some (.num i, rest) := by
  obtain ⟨d, ds, hds, hd⟩ := writeNum_head i
  have hr := readNum_writeNum i hrest
  rw [hds, List.cons_append] at hr ⊢
  have hb : isBlank d = false := by
    rcases hd with hd | rfl
    · exact digit_not_blank hd
    · decide
  rw [readValue, skipBlanks_cons hb]
  split
  all_goals
    rename_i heq
    first
    | (simp only [List.cons.injEq] at heq
       obtain ⟨rfl, -⟩ := heq
       simp at hd)
    | simp [hr]

theorem numEnds_cons {c : Char} (h : numTail c = false) (cs : List Char) :
    NumEnds (c :: cs) := by
  simp [NumEnds, h]

mutual
/-- **A written value reads back**, whatever follows it, with fuel past the
length of its text. -/
theorem readValue_write : ∀ (v : Json) (n : Nat) (rest : List Char),
    NumEnds rest → v.write.length < n →
      readValue n (v.write ++ rest) = some (v, rest)
  | v, 0, rest, _, h => by simp at h
  | .null, n + 1, rest, _, _ => by rw [write, readValue]; rfl
  | .bool true, n + 1, rest, _, _ => by rw [write, readValue]; rfl
  | .bool false, n + 1, rest, _, _ => by rw [write, readValue]; rfl
  | .num i, n + 1, rest, hr, _ => by rw [write]; exact readValue_num i hr n
  | .str s, n + 1, rest, _, _ => by
      have hs := readStr_writeStr s rest
      rw [write, writeStr, chars_eq_toList, readValue, List.cons_append, skipBlanks_cons (by decide)]
      simp only [List.append_assoc, List.singleton_append]
      rw [hs]
      simp
  | .arr [], n + 1, rest, _, _ => by rw [write, writeElems, readValue]; rfl
  | .arr (x :: xs), n + 1, rest, _, h => by
      obtain ⟨d, ds, hd, hb, hne, -⟩ := write_head x
      have hw : ∃ es, writeElems (x :: xs) = d :: es := by
        cases xs with
        | nil => exact ⟨_, by rw [writeElems, hd]; rfl⟩
        | cons y ys => exact ⟨_, by rw [writeElems, hd]; rfl⟩
      obtain ⟨es, hes⟩ := hw
      rw [write] at h ⊢
      have ih := readElems_write x xs n rest (by simpa using h)
      rw [readValue, List.cons_append, skipBlanks_cons (by decide)]
      rw [hes, List.cons_append] at ih ⊢
      simp only [skipBlanks_cons hb]
      split
      · rename_i heq
        simp only [List.cons.injEq] at heq
        exact absurd heq.1 hne
      · simp [ih]
  | .obj [], n + 1, rest, _, _ => by rw [write, writeMembers, readValue]; rfl
  | .obj ((k, v) :: kvs), n + 1, rest, _, h => by
      have hw : ∃ es, writeMembers ((k, v) :: kvs) = '"' :: es := by
        cases kvs with
        | nil => exact ⟨_, by rw [writeMembers, writeStr]; rfl⟩
        | cons y ys => exact ⟨_, by rw [writeMembers, writeStr]; rfl⟩
      obtain ⟨es, hes⟩ := hw
      rw [write] at h ⊢
      have ih := readMembers_write k v kvs n rest (by simpa using h)
      rw [readValue, List.cons_append, skipBlanks_cons (by decide)]
      rw [hes, List.cons_append] at ih ⊢
      simp only [skipBlanks_cons (show isBlank '"' = false by decide)]
      simp [ih]
theorem readElems_write : ∀ (x : Json) (xs : List Json) (n : Nat) (rest : List Char),
    (writeElems (x :: xs)).length < n →
      readElems n (writeElems (x :: xs) ++ rest) = some (x :: xs, rest)
  | x, xs, 0, rest, h => by simp at h
  | x, [], n + 1, rest, h => by
      rw [writeElems, List.length_append, List.length_singleton] at h
      have hx := readValue_write x n (']' :: rest) (numEnds_cons (by decide) _) (by omega)
      rw [writeElems, readElems, List.append_assoc, List.singleton_append]
      simp [hx, skipBlanks_cons (show isBlank ']' = false by decide)]
  | x, y :: xs, n + 1, rest, h => by
      rw [writeElems, List.length_append, List.length_cons] at h
      have hx := readValue_write x n (',' :: (writeElems (y :: xs) ++ rest))
        (numEnds_cons (by decide) _) (by omega)
      have ih := readElems_write y xs n rest (by omega)
      rw [writeElems, readElems, List.append_assoc, List.cons_append]
      simp [hx, ih, skipBlanks_cons (show isBlank ',' = false by decide)]
theorem readMembers_write : ∀ (k : String) (v : Json) (kvs : List (String × Json))
    (n : Nat) (rest : List Char),
    (writeMembers ((k, v) :: kvs)).length < n →
      readMembers n (writeMembers ((k, v) :: kvs) ++ rest) = some ((k, v) :: kvs, rest)
  | k, v, kvs, 0, rest, h => by simp at h
  | k, v, [], n + 1, rest, h => by
      rw [writeMembers] at h ⊢
      simp only [List.length_append, List.length_cons, List.length_nil] at h
      have hv := readValue_write v n ('}' :: rest) (numEnds_cons (by decide) _) (by omega)
      have hk := readStr_writeStr k (':' :: (v.write ++ '}' :: rest))
      rw [readMembers, writeStr, chars_eq_toList]
      simp only [List.cons_append, List.append_assoc, List.nil_append,
        skipBlanks_cons (show isBlank '"' = false by decide)]
      rw [hk]
      simp [hv, skipBlanks_cons (show isBlank ':' = false by decide),
        skipBlanks_cons (show isBlank '}' = false by decide)]
  | k, v, (k', v') :: kvs, n + 1, rest, h => by
      rw [writeMembers] at h ⊢
      simp only [List.length_append, List.length_cons] at h
      have hv := readValue_write v n (',' :: (writeMembers ((k', v') :: kvs) ++ rest))
        (numEnds_cons (by decide) _) (by omega)
      have ih := readMembers_write k' v' kvs n rest (by omega)
      have hk := readStr_writeStr k
        (':' :: (v.write ++ ',' :: (writeMembers ((k', v') :: kvs) ++ rest)))
      rw [readMembers, writeStr, chars_eq_toList]
      simp only [List.cons_append, List.append_assoc, List.nil_append,
        skipBlanks_cons (show isBlank '"' = false by decide)]
      rw [hk]
      simp [hv, ih, skipBlanks_cons (show isBlank ':' = false by decide),
        skipBlanks_cons (show isBlank ',' = false by decide)]
end

theorem readText_write (v : Json) : readText v.write = some v := by
  have h := readValue_write v (v.write.length + 1) [] rfl (by omega)
  rw [List.append_nil] at h
  have hblank : skipBlanks [] = [] := rfl
  rw [readText, h]
  show (if skipBlanks [] = [] then some v else none) = some v
  exact if_pos hblank

theorem write_injective : Function.Injective write := by
  intro v w h
  have hv := readText_write v
  rw [h, readText_write w] at hv
  exact (Option.some.inj hv).symm

/-! ## UTF-8 -/

theorem utf8_toByteArray (cs : List Char) : (utf8 cs).toByteArray = cs.utf8Encode := rfl

theorem utf8_injective : Function.Injective utf8 := by
  intro cs ds h
  have hc := List.utf8Decode?_utf8Encode (l := cs)
  have hd := List.utf8Decode?_utf8Encode (l := ds)
  rw [← utf8_toByteArray] at hc hd
  rw [h, hd] at hc
  simpa using (Option.some.inj hc).symm

/-- **Round trip**: the octets of a value decode to it. -/
theorem fromSlice_toVec (v : Json) : fromSlice v.toVec = some v := by
  have h := List.utf8Decode?_utf8Encode (l := v.write)
  rw [← utf8_toByteArray] at h
  simp [fromSlice, toVec, h, readText_write]

/-- Octets to value, with ASCII read off the octets. -/
def fromAscii (bs : Bytes) : Option Json :=
  if bs.all (· < 128) then readText (bs.map fun b => Char.ofNat b.toNat) else fromSlice bs

theorem utf8EncodeChar_ascii :
    ∀ n < 128, String.utf8EncodeChar (Char.ofNat n) = [UInt8.ofNat n] := by
  decide +kernel

theorem utf8_ofNat : ∀ {bs : Bytes}, (∀ b ∈ bs, b < 128) →
    utf8 (bs.map fun b => Char.ofNat b.toNat) = bs
  | [], _ => rfl
  | b :: bs, h => by
      have hb : String.utf8EncodeChar (Char.ofNat b.toNat) = [b] := by
        rw [utf8EncodeChar_ascii b.toNat (UInt8.lt_iff_toNat_lt.mp (h b List.mem_cons_self)),
          UInt8.ofNat_toNat]
      have ih := utf8_ofNat fun b' hb' => h b' (List.mem_cons_of_mem b hb')
      rw [utf8] at ih ⊢
      rw [List.map_cons, List.flatMap_cons, ih, hb, List.singleton_append]

theorem fromSlice_eq_fromAscii (bs : Bytes) : fromSlice bs = fromAscii bs := by
  rw [fromAscii]
  split
  · rename_i hascii
    have hlow : ∀ b ∈ bs, b < 128 := fun b hb => by simpa using List.all_eq_true.mp hascii b hb
    have hbytes := utf8_ofNat hlow
    have h := @List.utf8Decode?_utf8Encode (bs.map fun b => Char.ofNat b.toNat)
    rw [← utf8_toByteArray, hbytes] at h
    rw [fromSlice, h]
    simp
  · rfl

theorem toVec_injective : Function.Injective toVec := fun _ _ h =>
  write_injective (utf8_injective h)

end Json
