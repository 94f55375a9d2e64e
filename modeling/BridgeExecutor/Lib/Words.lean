import Mathlib.Algebra.Group.Nat.Defs
import Mathlib.Data.List.Basic
import Mathlib.Data.Nat.Log
import Mathlib.Tactic.Common

/-!
# Byte words and length-prefixed byte strings

* `word` — a number as 32 bytes, most significant first
* `tail` — a byte string preceded by its length and padded with zeros to whole words

Both are **self-delimiting**: what follows them can be told apart.
`word_append_inj` and `tail_append_inj` say so, and an encoding built from such pieces is
injective by peeling them off from the left.

`shortest` writes a number without leading zeros and `ofBytes` reads it back, with or without
them.
-/

namespace Words

/-- The last `k` bytes of `n`, most significant first. -/
def bigEndian : Nat → Nat → List UInt8
  | 0, _ => []
  | k + 1, n => bigEndian k (n / 256) ++ [UInt8.ofNat n]

@[simp] theorem length_bigEndian : ∀ (k n : Nat), (bigEndian k n).length = k
  | 0, _ => rfl
  | k + 1, n => by simp [bigEndian, length_bigEndian k]

theorem bigEndian_inj : ∀ {k n m : Nat}, n < 256 ^ k → m < 256 ^ k →
    bigEndian k n = bigEndian k m → n = m
  | 0, n, m, hn, hm, _ => by simp at hn hm; omega
  | k + 1, n, m, hn, hm, h => by
    obtain ⟨hdiv, hlast⟩ := List.append_inj h (by simp)
    have hq : n / 256 = m / 256 :=
      bigEndian_inj (Nat.div_lt_of_lt_mul (by rw [Nat.pow_succ] at hn; omega))
        (Nat.div_lt_of_lt_mul (by rw [Nat.pow_succ] at hm; omega)) hdiv
    have hr : n % 256 = m % 256 := by
      have := congrArg UInt8.toNat (List.singleton_inj.mp hlast)
      simpa using this
    omega

/-- A number as one 32-byte word. -/
def word (n : Nat) : List UInt8 := bigEndian 32 n

@[simp] theorem length_word (n : Nat) : (word n).length = 32 := length_bigEndian 32 n

theorem word_append_inj {n m : Nat} {r r' : List UInt8} (hn : n < 2 ^ 256) (hm : m < 2 ^ 256)
    (h : word n ++ r = word m ++ r') : n = m ∧ r = r' := by
  obtain ⟨hw, hr⟩ := List.append_inj h (by simp)
  have hpow : (256 : Nat) ^ 32 = 2 ^ 256 := by decide
  exact ⟨bigEndian_inj (by rw [hpow]; exact hn) (by rw [hpow]; exact hm) hw, hr⟩

/-- The zeros that fill the last word of `n` bytes. -/
def padding (n : Nat) : List UInt8 := List.replicate ((32 - n % 32) % 32) 0

def tail (b : List UInt8) : List UInt8 := word b.length ++ (b ++ padding b.length)

theorem length_tail_le (b : List UInt8) : (tail b).length ≤ b.length + 63 := by
  rw [tail, List.length_append, List.length_append, length_word, padding, List.length_replicate]
  omega

theorem tail_append_inj {b c r r' : List UInt8} (hb : b.length < 2 ^ 256)
    (hc : c.length < 2 ^ 256) (h : tail b ++ r = tail c ++ r') : b = c ∧ r = r' := by
  simp only [tail, List.append_assoc] at h
  obtain ⟨hlen, h⟩ := word_append_inj hb hc h
  obtain ⟨rfl, h⟩ := List.append_inj h hlen
  exact ⟨rfl, List.append_cancel_left h⟩

/-! ## Numbers of any size -/

/-- The number that a byte string stands for, most significant byte first. -/
def ofBytes (b : List UInt8) : Nat := b.foldl (fun n x => 256 * n + x.toNat) 0

/-- A number in as few bytes as it needs, but at least one. -/
def shortest (n : Nat) : List UInt8 := bigEndian (Nat.log 256 n + 1) n

theorem ofBytes_append_singleton (b : List UInt8) (x : UInt8) :
    ofBytes (b ++ [x]) = 256 * ofBytes b + x.toNat := by
  simp [ofBytes]

theorem ofBytes_bigEndian : ∀ (k n : Nat), ofBytes (bigEndian k n) = n % 256 ^ k
  | 0, n => by simp [bigEndian, ofBytes, Nat.mod_one]
  | k + 1, n => by
    have hpow : 256 ^ (k + 1) = 256 * 256 ^ k := Nat.pow_succ'
    rw [bigEndian, ofBytes_append_singleton, ofBytes_bigEndian k, UInt8.toNat_ofNat', hpow,
      Nat.mod_mul]
    omega

theorem ofBytes_bigEndian_of_lt {k n : Nat} (h : n < 256 ^ k) : ofBytes (bigEndian k n) = n := by
  rw [ofBytes_bigEndian, Nat.mod_eq_of_lt h]

theorem ofBytes_zero_cons (b : List UInt8) : ofBytes (0 :: b) = ofBytes b := rfl

theorem ofBytes_replicate_append : ∀ (j : Nat) (b : List UInt8),
    ofBytes (List.replicate j 0 ++ b) = ofBytes b
  | 0, _ => rfl
  | j + 1, b => by
    rw [List.replicate_succ, List.cons_append, ofBytes_zero_cons, ofBytes_replicate_append j]

/-- Leading zeros do not count. -/
theorem ofBytes_dropWhile : ∀ b : List UInt8, ofBytes (b.dropWhile (· = 0)) = ofBytes b
  | [] => rfl
  | x :: b => by
    by_cases hx : x = 0
    · subst hx
      exact ofBytes_dropWhile b
    · rw [List.dropWhile_cons_of_neg (by simpa using hx)]

theorem lt_pow_length_shortest (n : Nat) : n < 256 ^ (shortest n).length := by
  rw [shortest, length_bigEndian]
  exact Nat.lt_pow_succ_log_self (by decide) n

@[simp] theorem ofBytes_shortest (n : Nat) : ofBytes (shortest n) = n := by
  have hlt := lt_pow_length_shortest n
  rw [shortest, length_bigEndian] at hlt
  exact ofBytes_bigEndian_of_lt hlt

theorem shortest_ne_nil (n : Nat) : shortest n ≠ [] := by
  rw [Ne, ← List.length_eq_zero_iff, shortest, length_bigEndian]
  exact Nat.succ_ne_zero _

/-- A number that takes `k + 1` bytes. -/
theorem length_shortest_eq {n k : Nat} (hle : 256 ^ k ≤ n) (hlt : n < 256 ^ (k + 1)) :
    (shortest n).length = k + 1 := by
  rw [shortest, length_bigEndian, Nat.log_eq_of_pow_le_of_lt_pow hle hlt]

/-- A number that fits into `k` bytes takes no more. -/
theorem length_shortest_le {n k : Nat} (hk : 0 < k) (h : n < 256 ^ k) :
    (shortest n).length ≤ k := by
  rw [shortest, length_bigEndian]
  exact Nat.log_lt_of_lt_pow' (Nat.ne_of_gt hk) h

theorem bigEndian_zero : ∀ j : Nat, bigEndian j 0 = List.replicate j 0
  | 0 => rfl
  | j + 1 => by rw [bigEndian, Nat.zero_div, bigEndian_zero j, List.replicate_succ']; rfl

/-- More bytes than needed are zeros in front. -/
theorem replicate_append_bigEndian : ∀ {k n : Nat} (j : Nat), n < 256 ^ k →
    List.replicate j 0 ++ bigEndian k n = bigEndian (j + k) n
  | 0, n, j, h => by
    obtain rfl : n = 0 := Nat.lt_one_iff.mp h
    rw [bigEndian, List.append_nil, Nat.add_zero, bigEndian_zero]
  | k + 1, n, j, h => by
    have hq : n / 256 < 256 ^ k := Nat.div_lt_of_lt_mul (by rw [← Nat.pow_succ']; exact h)
    rw [← Nat.add_assoc, bigEndian, bigEndian, ← List.append_assoc,
      replicate_append_bigEndian j hq]

/-- The shortest form, filled up with zeros to `k` bytes. -/
theorem replicate_append_shortest {k n : Nat} (hk : 0 < k) (h : n < 256 ^ k) :
    List.replicate (k - (shortest n).length) 0 ++ shortest n = bigEndian k n := by
  have hle := length_shortest_le hk h
  have hlt := lt_pow_length_shortest n
  rw [shortest, length_bigEndian] at hle hlt ⊢
  rw [replicate_append_bigEndian _ hlt, Nat.sub_add_cancel hle]

end Words
