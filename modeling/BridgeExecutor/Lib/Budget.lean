import Mathlib.Data.List.Basic

/-!
# Spending from a budget

A list of expenses is met one after the other.
An expense has a **need**, which the budget must cover when its turn comes, and a **cost**, by
which the budget then shrinks; the need may be larger than the cost.

`spend_eq_none` finds the first expense that is not covered by a condition on the prefixes of the
list, and `spend_eq_some` says what is left over.
-/

namespace Budget

variable {α : Type} (need cost : α → Nat)

/-- What is left of the budget `b`; `none` if some expense is not covered. -/
def spend : List α → Nat → Option Nat
  | [], b => some b
  | x :: l, b => if b < need x then none else spend l (b - cost x)

/-- The cost of all the expenses of a list. -/
def total : List α → Nat
  | [] => 0
  | x :: l => cost x + total l

variable {need cost}

@[simp] theorem total_nil : total cost ([] : List α) = 0 := rfl

@[simp] theorem total_cons (x : α) (l : List α) : total cost (x :: l) = cost x + total cost l :=
  rfl

theorem spend_cons_of_lt {x : α} {l : List α} {b : Nat} (h : b < need x) :
    spend need cost (x :: l) b = none := if_pos h

theorem spend_cons_of_le {x : α} {l : List α} {b : Nat} (h : need x ≤ b) :
    spend need cost (x :: l) b = spend need cost l (b - cost x) := if_neg (Nat.not_lt.mpr h)

/-- What is left over. -/
theorem spend_eq_some (hcost : ∀ x, cost x ≤ need x) : ∀ {l : List α} {b r : Nat},
    spend need cost l b = some r → r + total cost l = b
  | [], b, r, h => by cases h; rfl
  | x :: l, b, r, h => by
    have hx := hcost x
    rcases Nat.lt_or_ge b (need x) with hb | hb
    · rw [spend_cons_of_lt hb] at h
      cases h
    · rw [spend_cons_of_le hb] at h
      have hrest := spend_eq_some hcost h
      rw [total_cons]
      omega

/-- **The budget fails at the first expense that its predecessors do not leave enough for.** -/
theorem spend_eq_none (hcost : ∀ x, cost x ≤ need x) : ∀ {l : List α} {b : Nat},
    spend need cost l b = none ↔
      ∃ i x, l[i]? = some x ∧ b < total cost (l.take i) + need x
  | [], b => by simp [spend]
  | x :: l, b => by
    have hx := hcost x
    rcases Nat.lt_or_ge b (need x) with hb | hb
    · rw [spend_cons_of_lt hb]
      exact ⟨fun _ => ⟨0, x, rfl, by simpa using hb⟩, fun _ => rfl⟩
    · rw [spend_cons_of_le hb, spend_eq_none hcost]
      constructor
      · rintro ⟨i, y, hy, hlt⟩
        refine ⟨i + 1, y, hy, ?_⟩
        rw [List.take_succ_cons, total_cons]
        omega
      · rintro ⟨i, y, hy, hlt⟩
        cases i with
        | zero =>
          cases hy
          rw [List.take_zero, total_nil] at hlt
          omega
        | succ i =>
          refine ⟨i, y, hy, ?_⟩
          rw [List.take_succ_cons, total_cons] at hlt
          omega

/-- A larger budget meets the same expenses. -/
theorem spend_mono (hcost : ∀ x, cost x ≤ need x) {l : List α} {b b' : Nat} (hle : b ≤ b')
    (h : spend need cost l b ≠ none) : spend need cost l b' ≠ none := by
  rw [Ne, spend_eq_none hcost] at h ⊢
  rintro ⟨i, x, hx, hlt⟩
  exact h ⟨i, x, hx, Nat.lt_of_le_of_lt hle hlt⟩

end Budget
