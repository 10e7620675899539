import ZeroSecret.Base.Der

/-!
# Encodings that can be cut off

An encoding is self-delimiting when it can be split off the front of any
longer text in one way only. Numbers of a fixed width are, so is a content
behind its length, a content before an octet it does not hold, a pair, and a
list behind its count: what such pieces are concatenated to says what the
pieces were, whatever they hold.
-/

namespace Framing

variable {α β : Type} {S : α → Prop} {T : β → Prop} {enc : α → Bytes} {enc' : β → Bytes}

/-- Nothing of `S` is cut off in two ways. -/
def SelfDelimiting (S : α → Prop) (enc : α → Bytes) : Prop :=
  ∀ ⦃a b : α⦄, S a → S b → ∀ ⦃x y : Bytes⦄, enc a ++ x = enc b ++ y → a = b ∧ x = y

theorem number (width : Nat) : SelfDelimiting (· < 256 ^ width) (BigEndian.write width) := by
  intro m n hm hn x y h
  obtain ⟨hnum, hrest⟩ := List.append_inj h (by simp)
  have hread := congrArg BigEndian.read hnum
  rw [BigEndian.read_write hm, BigEndian.read_write hn] at hread
  exact ⟨hread, hrest⟩

/-- A content behind its length. -/
def framed (width : Nat) (content : Bytes) : Bytes :=
  BigEndian.write width content.length ++ content

theorem selfDelimiting_framed (width : Nat) :
    SelfDelimiting (fun content => content.length < 256 ^ width) (framed width) := by
  intro c c' hc hc' x y h
  rw [framed, framed, List.append_assoc, List.append_assoc] at h
  obtain ⟨hlen, h⟩ := number width hc hc' h
  exact List.append_inj h hlen

/-- A content before an octet it does not hold. -/
theorem terminated (z : UInt8) : SelfDelimiting (z ∉ ·) (fun content => content ++ [z]) := by
  intro c c' hc hc' x y h
  rw [List.append_assoc, List.append_assoc] at h
  induction c generalizing c' with
  | nil =>
      cases c' with
      | nil => exact ⟨rfl, (List.cons.inj h).2⟩
      | cons b c' =>
          obtain ⟨rfl, -⟩ := List.cons.inj h
          exact absurd List.mem_cons_self hc'
  | cons a c ih =>
      cases c' with
      | nil =>
          obtain ⟨rfl, -⟩ := List.cons.inj h
          exact absurd List.mem_cons_self hc
      | cons b c' =>
          obtain ⟨rfl, htail⟩ := List.cons.inj h
          obtain ⟨rfl, hrest⟩ := ih (List.not_mem_of_not_mem_cons hc)
            (List.not_mem_of_not_mem_cons hc') htail
          exact ⟨rfl, hrest⟩

theorem SelfDelimiting.comp (h : SelfDelimiting S enc) {f : β → α} (hf : Function.Injective f) :
    SelfDelimiting (fun b => S (f b)) (fun b => enc (f b)) := by
  intro a b ha hb x y hxy
  obtain ⟨hab, hxy⟩ := h ha hb hxy
  exact ⟨hf hab, hxy⟩

theorem SelfDelimiting.pair (h : SelfDelimiting S enc) (h' : SelfDelimiting T enc') :
    SelfDelimiting (fun p : α × β => S p.1 ∧ T p.2) (fun p => enc p.1 ++ enc' p.2) := by
  rintro ⟨a, b⟩ ⟨a', b'⟩ ⟨ha, hb⟩ ⟨ha', hb'⟩ x y hxy
  rw [List.append_assoc, List.append_assoc] at hxy
  obtain ⟨hfirst, htail⟩ := h ha ha' hxy
  obtain ⟨hsecond, hrest⟩ := h' hb hb' htail
  exact ⟨Prod.ext hfirst hsecond, hrest⟩

/-- Lists of one length, entry by entry. -/
theorem SelfDelimiting.entries (h : SelfDelimiting S enc) {l l' : List α} (hl : ∀ a ∈ l, S a)
    (hl' : ∀ a ∈ l', S a) (hlen : l.length = l'.length) {x y : Bytes}
    (hxy : l.flatMap enc ++ x = l'.flatMap enc ++ y) : l = l' ∧ x = y := by
  induction l generalizing l' with
  | nil =>
      obtain rfl := List.eq_nil_of_length_eq_zero hlen.symm
      exact ⟨rfl, hxy⟩
  | cons a l ih =>
      cases l' with
      | nil => cases hlen
      | cons b l' =>
          rw [List.flatMap_cons, List.flatMap_cons, List.append_assoc, List.append_assoc] at hxy
          obtain ⟨hfirst, htail⟩ := h (hl a List.mem_cons_self) (hl' b List.mem_cons_self) hxy
          obtain ⟨hothers, hrest⟩ := ih (fun c hc => hl c (List.mem_cons_of_mem a hc))
            (fun c hc => hl' c (List.mem_cons_of_mem b hc)) (Nat.succ.inj hlen) htail
          exact ⟨by rw [hfirst, hothers], hrest⟩

/-- A list behind the number of its entries. -/
theorem SelfDelimiting.counted (h : SelfDelimiting S enc) (width : Nat) :
    SelfDelimiting (fun l : List α => l.length < 256 ^ width ∧ ∀ a ∈ l, S a)
      (fun l => BigEndian.write width l.length ++ l.flatMap enc) := by
  rintro l l' ⟨hlen, hl⟩ ⟨hlen', hl'⟩ x y hxy
  rw [List.append_assoc, List.append_assoc] at hxy
  obtain ⟨hcount, hxy⟩ := number width hlen hlen' hxy
  exact h.entries hl hl' hcount hxy

end Framing
