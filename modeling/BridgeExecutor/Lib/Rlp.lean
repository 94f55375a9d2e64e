import BridgeExecutor.Lib.Words

/-!
# Recursive length prefixes

The encoding of a list of byte strings, as transactions use it.
Every string is preceded by its length, in one byte if it is short, and the list by the length of
all of them; a single byte below 128 stands for itself.

Like the words of `Words` the pieces are self-delimiting, and `encodeList_inj` peels them off.
-/

namespace Rlp

open Words

/-- The prefix of `n` bytes; `offset` is 128 for a string and 192 for a list. -/
def header (offset n : Nat) : List UInt8 :=
  if n < 56 then [UInt8.ofNat (offset + n)]
  else UInt8.ofNat (offset + 55 + (shortest n).length) :: shortest n

/-- A byte that stands for itself. -/
def Single (b : List UInt8) : Prop := b.length = 1 ∧ ∀ x ∈ b, x.toNat < 128

instance (b : List UInt8) : Decidable (Single b) := inferInstanceAs (Decidable (_ ∧ _))

def encodeBytes (b : List UInt8) : List UInt8 :=
  if Single b then b else header 128 b.length ++ b

def encodeList (l : List (List UInt8)) : List UInt8 :=
  header 192 (l.flatMap encodeBytes).length ++ l.flatMap encodeBytes

/-! ## The prefix -/

theorem length_shortest_mem {n : Nat} (h : n < 2 ^ 64) :
    1 ≤ (shortest n).length ∧ (shortest n).length ≤ 8 := by
  have hpow : (256 : Nat) ^ 8 = 2 ^ 64 := by decide
  exact ⟨List.length_pos_iff.mpr (shortest_ne_nil n),
    length_shortest_le (by decide) (by rw [hpow]; exact h)⟩

theorem length_header_le (offset : Nat) {n : Nat} (h : n < 2 ^ 64) :
    (header offset n).length ≤ 9 := by
  unfold header
  have := length_shortest_mem h
  split
  · simp
  · rw [List.length_cons]
    omega

theorem header_append_inj {offset n m : Nat} {r r' : List UInt8} (hoffset : offset ≤ 192)
    (hn : n < 2 ^ 64) (hm : m < 2 ^ 64) (h : header offset n ++ r = header offset m ++ r') :
    n = m ∧ r = r' := by
  have hln := length_shortest_mem hn
  have hlm := length_shortest_mem hm
  -- the first byte tells the length, or the length of the length
  have hfirst {x y : Nat} (hx : x < 256) (hy : y < 256) (hxy : UInt8.ofNat x = UInt8.ofNat y) :
      x = y := by
    have := congrArg UInt8.toNat hxy
    rw [UInt8.toNat_ofNat', UInt8.toNat_ofNat'] at this
    omega
  unfold header at h
  by_cases hns : n < 56 <;> by_cases hms : m < 56
  · rw [if_pos hns, if_pos hms] at h
    obtain ⟨hbyte, hr⟩ := List.cons.inj h
    have := hfirst (by omega) (by omega) hbyte
    exact ⟨by omega, hr⟩
  · rw [if_pos hns, if_neg hms] at h
    have := hfirst (by omega) (by omega) (List.cons.inj h).1
    omega
  · rw [if_neg hns, if_pos hms] at h
    have := hfirst (by omega) (by omega) (List.cons.inj h).1
    omega
  · rw [if_neg hns, if_neg hms] at h
    obtain ⟨hbyte, hrest⟩ := List.cons.inj h
    have hlen := hfirst (by omega) (by omega) hbyte
    obtain ⟨hnm, hr⟩ := List.append_inj hrest (by omega)
    have hval := congrArg ofBytes hnm
    rw [ofBytes_shortest, ofBytes_shortest] at hval
    exact ⟨hval, hr⟩

/-- A prefix of a string does not stand for itself. -/
theorem header_head {n : Nat} (h : n < 2 ^ 64) :
    ∃ x l, header 128 n = x :: l ∧ 128 ≤ x.toNat := by
  have hln := length_shortest_mem h
  unfold header
  split
  · refine ⟨_, _, rfl, ?_⟩
    rw [UInt8.toNat_ofNat']
    omega
  · refine ⟨_, _, rfl, ?_⟩
    rw [UInt8.toNat_ofNat']
    omega

/-! ## Strings -/

theorem encodeBytes_ne_nil (b : List UInt8) : encodeBytes b ≠ [] := by
  unfold encodeBytes header
  split
  · next h =>
    rintro rfl
    cases h.1
  · split <;> simp

theorem length_encodeBytes_le {b : List UInt8} (h : b.length < 2 ^ 64) :
    (encodeBytes b).length ≤ b.length + 9 := by
  have := length_header_le 128 h
  unfold encodeBytes
  split
  · omega
  · rw [List.length_append]
    omega

/-- What stands for itself differs from what has a prefix. -/
theorem single_append_ne {b c r r' : List UInt8} (hb : Single b) (hc : c.length < 2 ^ 64) :
    b ++ r ≠ header 128 c.length ++ c ++ r' := by
  intro h
  obtain ⟨x, rfl⟩ := List.length_eq_one_iff.mp hb.1
  obtain ⟨y, l, hy, hle⟩ := header_head hc
  rw [hy] at h
  have hxy : x = y := (List.cons.inj h).1
  have hlt := hb.2 x (List.mem_singleton.mpr rfl)
  rw [hxy] at hlt
  omega

theorem encodeBytes_append_inj {b c r r' : List UInt8} (hb : b.length < 2 ^ 64)
    (hc : c.length < 2 ^ 64) (h : encodeBytes b ++ r = encodeBytes c ++ r') : b = c ∧ r = r' := by
  unfold encodeBytes at h
  by_cases hsb : Single b <;> by_cases hsc : Single c
  · rw [if_pos hsb, if_pos hsc] at h
    exact List.append_inj h (hsb.1.trans hsc.1.symm)
  · rw [if_pos hsb, if_neg hsc] at h
    exact absurd h (single_append_ne hsb hc)
  · rw [if_neg hsb, if_pos hsc] at h
    exact absurd h.symm (single_append_ne hsc hb)
  · rw [if_neg hsb, if_neg hsc, List.append_assoc, List.append_assoc] at h
    obtain ⟨hlen, hrest⟩ := header_append_inj (by decide) hb hc h
    exact List.append_inj hrest hlen

/-! ## Lists -/

theorem length_le_payload : ∀ {l : List (List UInt8)} {b : List UInt8}, b ∈ l →
    b.length ≤ (l.flatMap encodeBytes).length
  | c :: l, b, h => by
    rw [List.flatMap_cons, List.length_append]
    rcases List.mem_cons.mp h with rfl | h
    · have : b.length ≤ (encodeBytes b).length := by
        unfold encodeBytes
        split <;> simp
      omega
    · have := length_le_payload h
      omega

theorem length_flatten_le {n : Nat} : ∀ {l : List (List UInt8)}, (∀ b ∈ l, b.length ≤ n) →
    l.flatten.length ≤ n * l.length
  | [], _ => Nat.zero_le _
  | b :: l, h => by
    have hb := h b List.mem_cons_self
    have hl := length_flatten_le fun c hc => h c (List.mem_cons_of_mem _ hc)
    rw [List.flatten_cons, List.length_append, List.length_cons, Nat.mul_succ]
    omega

theorem length_payload_le : ∀ {l : List (List UInt8)}, (∀ b ∈ l, b.length < 2 ^ 64) →
    (l.flatMap encodeBytes).length ≤ l.flatten.length + 9 * l.length
  | [], _ => Nat.le_refl _
  | b :: l, h => by
    have hb := length_encodeBytes_le (h b List.mem_cons_self)
    have hl := length_payload_le fun c hc => h c (List.mem_cons_of_mem _ hc)
    rw [List.flatMap_cons, List.length_append, List.flatten_cons, List.length_append,
      List.length_cons]
    omega

theorem payload_inj : ∀ {l l' : List (List UInt8)}, (∀ b ∈ l, b.length < 2 ^ 64) →
    (∀ b ∈ l', b.length < 2 ^ 64) → l.flatMap encodeBytes = l'.flatMap encodeBytes → l = l'
  | [], [], _, _, _ => rfl
  | [], b :: l', _, _, h => by
    rw [List.flatMap_cons] at h
    exact absurd (List.append_eq_nil_iff.mp h.symm).1 (encodeBytes_ne_nil b)
  | b :: l, [], _, _, h => by
    rw [List.flatMap_cons] at h
    exact absurd (List.append_eq_nil_iff.mp h).1 (encodeBytes_ne_nil b)
  | b :: l, c :: l', hl, hl', h => by
    rw [List.flatMap_cons, List.flatMap_cons] at h
    obtain ⟨rfl, hrest⟩ := encodeBytes_append_inj (hl b List.mem_cons_self)
      (hl' c List.mem_cons_self) h
    rw [payload_inj (fun x hx => hl x (List.mem_cons_of_mem _ hx))
      (fun x hx => hl' x (List.mem_cons_of_mem _ hx)) hrest]

/-- **The encoding of a list determines it**, as long as lengths fit into eight bytes. -/
theorem encodeList_inj {l l' : List (List UInt8)} (hl : l.flatten.length + 9 * l.length < 2 ^ 64)
    (hl' : l'.flatten.length + 9 * l'.length < 2 ^ 64) (h : encodeList l = encodeList l') :
    l = l' := by
  have hsize {l : List (List UInt8)} (hl : l.flatten.length + 9 * l.length < 2 ^ 64) :
      ∀ b ∈ l, b.length < 2 ^ 64 := by
    intro b hb
    have := (List.sublist_flatten_of_mem hb).length_le
    omega
  have hpayload := length_payload_le (hsize hl)
  have hpayload' := length_payload_le (hsize hl')
  obtain ⟨-, hrest⟩ := header_append_inj (by decide) (by omega) (by omega) h
  exact payload_inj (hsize hl) (hsize hl') hrest

end Rlp
