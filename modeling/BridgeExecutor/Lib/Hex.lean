import BridgeExecutor.Lib.Words

/-!
# Hexadecimal strings

Strings are lists of characters.  A byte is two digits; `encode` writes them in lower case and
`decode` reads both cases.

* `decode_encode` — the round trip
* `eq_replicate_of_decode` — zeros have one spelling only
-/

namespace Hex

/-- The digit of a number below 16. -/
def digit (n : Nat) : Char := "0123456789abcdef".toList.getD n '0'

def value? (c : Char) : Option Nat :=
  if 48 ≤ c.toNat ∧ c.toNat ≤ 57 then some (c.toNat - 48)
  else if 97 ≤ c.toNat ∧ c.toNat ≤ 102 then some (c.toNat - 87)
  else if 65 ≤ c.toNat ∧ c.toNat ≤ 70 then some (c.toNat - 55)
  else none

def encode : List UInt8 → List Char
  | [] => []
  | x :: b => digit (x.toNat / 16) :: digit (x.toNat % 16) :: encode b

/-- `none` if the number of digits is odd or a character is no digit. -/
def decode : List Char → Option (List UInt8)
  | [] => some []
  | [_] => none
  | c :: c' :: l =>
    match value? c, value? c', decode l with
    | some hi, some lo, some b => some (UInt8.ofNat (16 * hi + lo) :: b)
    | _, _, _ => none

theorem value?_digit : ∀ {n : Nat}, n < 16 → value? (digit n) = some n := by
  decide

@[simp] theorem decode_encode : ∀ b : List UInt8, decode (encode b) = some b
  | [] => rfl
  | x :: b => by
    have hx := x.toNat_lt
    have hbyte : 16 * (x.toNat / 16) + x.toNat % 16 = x.toNat := Nat.div_add_mod _ _
    rw [encode, decode, value?_digit (by omega), value?_digit (by omega), decode_encode b]
    dsimp only
    rw [hbyte, UInt8.ofNat_toNat]

@[simp] theorem length_encode : ∀ b : List UInt8, (encode b).length = 2 * b.length
  | [] => rfl
  | x :: b => by
    rw [encode, List.length_cons, List.length_cons, length_encode b, List.length_cons]
    omega

theorem length_decode : ∀ {d : List Char} {b : List UInt8}, decode d = some b →
    d.length = 2 * b.length
  | [], _, h => by cases h; rfl
  | [_], _, h => by cases h
  | c :: c' :: l, b, h => by
    rw [decode] at h
    split at h
    · next hi lo b' _ _ hb =>
      cases h
      rw [List.length_cons, List.length_cons, List.length_cons, length_decode hb]
      omega
    · cases h

@[simp] theorem encode_append : ∀ b c : List UInt8, encode (b ++ c) = encode b ++ encode c
  | [], _ => rfl
  | x :: b, c => by
    rw [List.cons_append, encode, encode_append b c]
    rfl

theorem encode_replicate_zero : ∀ j : Nat,
    encode (List.replicate j 0) = List.replicate (2 * j) '0'
  | 0 => rfl
  | j + 1 => by
    rw [List.replicate_succ, encode, encode_replicate_zero j, Nat.mul_succ]
    rfl

/-! ## Zeros -/

theorem value?_lt {c : Char} {n : Nat} (h : value? c = some n) : n < 16 := by
  unfold value? at h
  split at h
  · cases h; omega
  split at h
  · cases h; omega
  split at h
  · cases h; omega
  · cases h

theorem eq_of_value?_zero {c : Char} (h : value? c = some 0) : c = '0' := by
  have hc : c.toNat = '0'.toNat := by
    unfold value? at h
    split at h
    · have := Option.some.inj h
      show c.toNat = 48
      omega
    split at h
    · have := Option.some.inj h
      omega
    split at h
    · have := Option.some.inj h
      omega
    · cases h
  rw [← Char.ofNat_toNat c, hc]
  rfl

theorem eq_replicate_of_decode : ∀ {k : Nat} {d : List Char},
    decode d = some (List.replicate k 0) → d = List.replicate (2 * k) '0'
  | 0, [], _ => rfl
  | _ + 1, [], h => by cases h
  | _, [_], h => by cases h
  | 0, c :: c' :: l, h => by
    rw [decode] at h
    split at h <;> cases h
  | k + 1, c :: c' :: l, h => by
    rw [decode] at h
    split at h
    · next hi lo b hhi hlo hb =>
      obtain ⟨hbyte, rfl⟩ := List.cons.inj (Option.some.inj h)
      have hsum := congrArg UInt8.toNat hbyte
      rw [UInt8.toNat_ofNat'] at hsum
      have hhilt := value?_lt hhi
      have hlolt := value?_lt hlo
      have hzero : 16 * hi + lo = 0 := by
        have hmod : (16 * hi + lo) % 256 = 0 := hsum
        omega
      obtain rfl : hi = 0 := by omega
      obtain rfl : lo = 0 := by omega
      rw [eq_of_value?_zero hhi, eq_of_value?_zero hlo, eq_replicate_of_decode hb, Nat.mul_succ]
      rfl
    · cases h

end Hex
