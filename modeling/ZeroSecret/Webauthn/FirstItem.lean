import ZeroSecret.Webauthn.Registration

/-!
# The first item of a text

What the parsing of a registration needs of `ciborium`: decoding takes the
first item and no octet more. The reader of definite lengths does.
-/

namespace ZeroSecret.Webauthn

/-- A decoder that takes the first item, whatever follows it, and never more
octets than there are. -/
structure ConsumesFirstItem (fromReader : Bytes → Option (CborValue × Nat))
    (WellFormedItem : Bytes → Prop) : Prop where
  consumed_le : ∀ bytes v consumed, fromReader bytes = some (v, consumed) →
    consumed ≤ bytes.length
  reads : ∀ item rest, WellFormedItem item →
    ∃ v, fromReader (item ++ rest) = some (v, item.length)

/-- The items `CborValue.fromReader` reads whole. -/
def ReadWhole (item : Bytes) : Prop := ∃ v, CborValue.fromReader item = some (v, item.length)

theorem readHead_append {bytes rest : Bytes} {major arg : Nat}
    (h : readHead bytes = some (major, arg, rest)) :
    rest.length < bytes.length ∧
      ∀ more, readHead (bytes ++ more) = some (major, arg, rest ++ more) := by
  cases bytes with
  | nil => cases h
  | cons b tail =>
      -- a head of one octet, or one with an argument of `width` octets
      have wide : ∀ width : Nat,
          (if width ≤ tail.length then
            some (b.toNat / 32, BigEndian.read (tail.take width), tail.drop width)
          else none) = some (major, arg, rest) →
          rest.length < (b :: tail).length ∧ ∀ more,
            (if width ≤ (tail ++ more).length then
              some (b.toNat / 32, BigEndian.read ((tail ++ more).take width),
                (tail ++ more).drop width)
            else none) = some (major, arg, rest ++ more) := by
        intro width hw
        split at hw
        · rename_i hle
          obtain ⟨rfl, rfl, rfl⟩ : b.toNat / 32 = major ∧
              BigEndian.read (tail.take width) = arg ∧ tail.drop width = rest := by
            simpa using hw
          constructor
          · rw [List.length_drop, List.length_cons]
            omega
          · intro more
            rw [if_pos (by rw [List.length_append]; omega),
              List.take_append_of_le_length hle, List.drop_append_of_le_length hle]
        · cases hw
      simp only [readHead] at h
      split at h
      · rename_i hshort
        obtain ⟨rfl, rfl, rfl⟩ : b.toNat / 32 = major ∧ b.toNat % 32 = arg ∧ tail = rest := by
          simpa using h
        refine ⟨Nat.lt_succ_self _, fun more => ?_⟩
        simp only [List.cons_append, readHead, if_pos hshort]
      · rename_i hlong
        split at h
        · rename_i h24
          refine ⟨(wide 1 h).1, fun more => ?_⟩
          simp only [List.cons_append, readHead, if_neg hlong, if_pos h24]
          exact (wide 1 h).2 more
        · rename_i h24
          split at h
          · rename_i h25
            refine ⟨(wide 2 h).1, fun more => ?_⟩
            simp only [List.cons_append, readHead, if_neg hlong, if_neg h24, if_pos h25]
            exact (wide 2 h).2 more
          · rename_i h25
            split at h
            · rename_i h26
              refine ⟨(wide 4 h).1, fun more => ?_⟩
              simp only [List.cons_append, readHead, if_neg hlong, if_neg h24, if_neg h25,
                if_pos h26]
              exact (wide 4 h).2 more
            · rename_i h26
              split at h
              · rename_i h27
                refine ⟨(wide 8 h).1, fun more => ?_⟩
                simp only [List.cons_append, readHead, if_neg hlong, if_neg h24, if_neg h25,
                  if_neg h26, if_pos h27]
                exact (wide 8 h).2 more
              · cases h

/-- What an item goes on with after its head. -/
def afterHead (n major arg : Nat) (rest : Bytes) : Option (CborValue × Bytes) :=
  match major with
  | 0 => some (.integer arg, rest)
  | 1 => some (.integer (-1 - arg), rest)
  | 2 => if arg ≤ rest.length then some (.bytes (rest.take arg), rest.drop arg) else none
  | 3 =>
      if arg ≤ rest.length then do
        let text ← (rest.take arg).toByteArray.utf8Decode?
        some (.text (String.ofList text.toList), rest.drop arg)
      else none
  | 4 => do
      let (xs, rest) ← readItems n arg rest
      some (.array xs, rest)
  | 5 => do
      let (kvs, rest) ← readPairs n arg rest
      some (.map kvs, rest)
  | 6 => do
      let (v, rest) ← readItem n rest
      some (.tag arg v, rest)
  | _ =>
      if arg = 20 then some (.bool false, rest)
      else if arg = 21 then some (.bool true, rest)
      else if arg = 22 then some (.null, rest)
      else none

theorem readItem_succ (n : Nat) (bytes : Bytes) :
    readItem (n + 1) bytes =
      (readHead bytes).bind fun head => afterHead n head.1 head.2.1 head.2.2 := by
  rw [readItem]
  rfl

/-- What is read from the front of a text is read from the front of any longer
one, with any more fuel. -/
def Stable {α : Type} (read : Nat → Bytes → Option (α × Bytes)) (n : Nat) : Prop :=
  ∀ {bytes a rest}, read n bytes = some (a, rest) →
    rest.length ≤ bytes.length ∧
      ∀ m more, n ≤ m → read m (bytes ++ more) = some (a, rest ++ more)

theorem stable_afterHead {n : Nat} (hitem : Stable readItem n)
    (hitems : ∀ count, Stable (readItems · count) n)
    (hpairs : ∀ count, Stable (readPairs · count) n) (major arg : Nat) :
    Stable (afterHead · major arg) n := by
  intro bytes v rest h
  match major, h with
  | 0, h =>
      obtain ⟨rfl, rfl⟩ := Prod.mk.inj (Option.some.inj h)
      exact ⟨Nat.le_refl _, fun _ _ _ => rfl⟩
  | 1, h =>
      obtain ⟨rfl, rfl⟩ := Prod.mk.inj (Option.some.inj h)
      exact ⟨Nat.le_refl _, fun _ _ _ => rfl⟩
  | 2, h =>
      simp only [afterHead] at h
      split at h
      · rename_i hle
        obtain ⟨rfl, rfl⟩ := Prod.mk.inj (Option.some.inj h)
        refine ⟨by rw [List.length_drop]; exact Nat.sub_le _ _, fun m more _ => ?_⟩
        simp only [afterHead]
        rw [if_pos (by rw [List.length_append]; omega), List.take_append_of_le_length hle,
          List.drop_append_of_le_length hle]
      · cases h
  | 3, h =>
      simp only [afterHead] at h
      split at h
      · rename_i hle
        obtain ⟨text, htext, h⟩ := Option.bind_eq_some_iff.mp h
        obtain ⟨rfl, rfl⟩ := Prod.mk.inj (Option.some.inj h)
        refine ⟨by rw [List.length_drop]; exact Nat.sub_le _ _, fun m more _ => ?_⟩
        simp only [afterHead]
        rw [if_pos (by rw [List.length_append]; omega), List.take_append_of_le_length hle,
          List.drop_append_of_le_length hle, htext]
        rfl
      · cases h
  | 4, h =>
      obtain ⟨⟨xs, rest'⟩, hxs, h⟩ := Option.bind_eq_some_iff.mp h
      obtain ⟨rfl, rfl⟩ := Prod.mk.inj (Option.some.inj h)
      obtain ⟨hle, hmore⟩ := hitems arg hxs
      refine ⟨hle, fun m more hm => ?_⟩
      simp only [afterHead]
      rw [show readItems m arg (bytes ++ more) = _ from hmore m more hm]
      rfl
  | 5, h =>
      obtain ⟨⟨kvs, rest'⟩, hkvs, h⟩ := Option.bind_eq_some_iff.mp h
      obtain ⟨rfl, rfl⟩ := Prod.mk.inj (Option.some.inj h)
      obtain ⟨hle, hmore⟩ := hpairs arg hkvs
      refine ⟨hle, fun m more hm => ?_⟩
      simp only [afterHead]
      rw [show readPairs m arg (bytes ++ more) = _ from hmore m more hm]
      rfl
  | 6, h =>
      obtain ⟨⟨w, rest'⟩, hw, h⟩ := Option.bind_eq_some_iff.mp h
      obtain ⟨rfl, rfl⟩ := Prod.mk.inj (Option.some.inj h)
      obtain ⟨hle, hmore⟩ := hitem hw
      refine ⟨hle, fun m more hm => ?_⟩
      simp only [afterHead]
      rw [hmore m more hm]
      rfl
  | k + 7, h =>
      have hsame : rest = bytes ∧ ∀ m more,
          afterHead m (k + 7) arg (bytes ++ more) = some (v, bytes ++ more) := by
        simp only [afterHead] at h ⊢
        split_ifs at h ⊢ <;> simp_all
      obtain ⟨rfl, hmore⟩ := hsame
      exact ⟨Nat.le_refl _, fun m more _ => hmore m more⟩

theorem stable_readItem_succ {n : Nat} (hafter : ∀ major arg, Stable (afterHead · major arg) n) :
    Stable readItem (n + 1) := by
  intro bytes v rest h
  rw [readItem_succ] at h
  obtain ⟨⟨major, arg, body⟩, hhead, h⟩ := Option.bind_eq_some_iff.mp h
  obtain ⟨hlt, hhead'⟩ := readHead_append hhead
  obtain ⟨hle, hbody⟩ := hafter major arg h
  refine ⟨Nat.le_trans hle (Nat.le_of_lt hlt), fun m more hm => ?_⟩
  cases m with
  | zero => omega
  | succ m =>
      rw [readItem_succ, hhead' more]
      exact hbody m more (by omega)

theorem stable_readItems_succ {n : Nat} (hitem : Stable readItem n)
    (hitems : ∀ count, Stable (readItems · count) n) (count : Nat) :
    Stable (readItems · count) (n + 1) := by
  intro bytes xs rest h
  cases count with
  | zero =>
      simp only [readItems] at h
      obtain ⟨rfl, rfl⟩ := Prod.mk.inj (Option.some.inj h)
      exact ⟨Nat.le_refl _, fun m more _ => by simp only [readItems]⟩
  | succ count =>
      simp only [readItems] at h
      obtain ⟨⟨x, mid⟩, hx, h⟩ := Option.bind_eq_some_iff.mp h
      obtain ⟨⟨ys, rest'⟩, hys, h⟩ := Option.bind_eq_some_iff.mp h
      obtain ⟨rfl, rfl⟩ := Prod.mk.inj (Option.some.inj h)
      obtain ⟨hle, hx'⟩ := hitem hx
      obtain ⟨hle', hys'⟩ := hitems count hys
      refine ⟨Nat.le_trans hle' hle, fun m more hm => ?_⟩
      cases m with
      | zero => omega
      | succ m =>
          simp only [readItems]
          rw [hx' m more (by omega)]
          show (readItems m count (mid ++ more)).bind _ = _
          rw [show readItems m count (mid ++ more) = _ from hys' m more (by omega)]
          rfl

theorem stable_readPairs_succ {n : Nat} (hitem : Stable readItem n)
    (hpairs : ∀ count, Stable (readPairs · count) n) (count : Nat) :
    Stable (readPairs · count) (n + 1) := by
  intro bytes kvs rest h
  cases count with
  | zero =>
      simp only [readPairs] at h
      obtain ⟨rfl, rfl⟩ := Prod.mk.inj (Option.some.inj h)
      exact ⟨Nat.le_refl _, fun m more _ => by simp only [readPairs]⟩
  | succ count =>
      simp only [readPairs] at h
      obtain ⟨⟨k, mid⟩, hk, h⟩ := Option.bind_eq_some_iff.mp h
      obtain ⟨⟨v, mid'⟩, hv, h⟩ := Option.bind_eq_some_iff.mp h
      obtain ⟨⟨kvs', rest'⟩, hkvs, h⟩ := Option.bind_eq_some_iff.mp h
      obtain ⟨rfl, rfl⟩ := Prod.mk.inj (Option.some.inj h)
      obtain ⟨hle, hk'⟩ := hitem hk
      obtain ⟨hle', hv'⟩ := hitem hv
      obtain ⟨hle'', hkvs'⟩ := hpairs count hkvs
      refine ⟨Nat.le_trans hle'' (Nat.le_trans hle' hle), fun m more hm => ?_⟩
      cases m with
      | zero => omega
      | succ m =>
          simp only [readPairs]
          rw [hk' m more (by omega)]
          show (readItem m (mid ++ more)).bind _ = _
          rw [hv' m more (by omega)]
          show (readPairs m count (mid' ++ more)).bind _ = _
          rw [show readPairs m count (mid' ++ more) = _ from hkvs' m more (by omega)]
          rfl

/-- Without fuel only the empty sequences are read. -/
theorem stable_zero : Stable readItem 0 ∧ (∀ count, Stable (readItems · count) 0) ∧
    ∀ count, Stable (readPairs · count) 0 := by
  refine ⟨?_, ?_, ?_⟩
  · intro bytes v rest h
    rw [readItem] at h
    cases h
  · intro count bytes xs rest h
    cases count with
    | zero =>
        simp only [readItems] at h
        obtain ⟨rfl, rfl⟩ := Prod.mk.inj (Option.some.inj h)
        exact ⟨Nat.le_refl _, fun m more _ => by simp only [readItems]⟩
    | succ count =>
        simp only [readItems] at h
        cases h
  · intro count bytes kvs rest h
    cases count with
    | zero =>
        simp only [readPairs] at h
        obtain ⟨rfl, rfl⟩ := Prod.mk.inj (Option.some.inj h)
        exact ⟨Nat.le_refl _, fun m more _ => by simp only [readPairs]⟩
    | succ count =>
        simp only [readPairs] at h
        cases h

theorem stable_all (n : Nat) : Stable readItem n ∧ (∀ count, Stable (readItems · count) n) ∧
    ∀ count, Stable (readPairs · count) n := by
  induction n with
  | zero => exact stable_zero
  | succ n ih =>
      obtain ⟨hitem, hitems, hpairs⟩ := ih
      refine ⟨stable_readItem_succ (stable_afterHead hitem hitems hpairs), ?_, ?_⟩
      · exact stable_readItems_succ hitem hitems
      · exact stable_readPairs_succ hitem hpairs

/-- `CborValue.fromReader` takes the first item. -/
theorem fromReader_consumesFirstItem : ConsumesFirstItem CborValue.fromReader ReadWhole := by
  constructor
  · intro bytes v consumed h
    obtain ⟨⟨v', rest⟩, -, h⟩ := Option.bind_eq_some_iff.mp h
    obtain ⟨rfl, rfl⟩ := Prod.mk.inj (Option.some.inj h)
    exact Nat.sub_le _ _
  · rintro item rest ⟨v, h⟩
    obtain ⟨⟨v', left⟩, hread, h⟩ := Option.bind_eq_some_iff.mp h
    obtain ⟨rfl, hconsumed⟩ := Prod.mk.inj (Option.some.inj h)
    obtain ⟨hle, hmore⟩ := (stable_all _).1 hread
    -- the whole item was taken
    obtain rfl : left = [] := by
      have hlt : 0 < item.length := by
        cases item with
        | nil => cases hread
        | cons b bs => exact Nat.succ_pos _
      exact List.length_eq_zero_iff.mp (by omega)
    refine ⟨v', ?_⟩
    rw [CborValue.fromReader, hmore _ rest (by rw [List.length_append]; omega)]
    simp

end ZeroSecret.Webauthn
