import Mathlib.Data.List.Basic
import Mathlib.Data.List.Induction

/-!
# Reading a state off its events

A program that announces its writes leaves a list of events behind.
A `Ledger` says in which views of the state an event may occur, and what it does to the view.

* `replay` — the view after a list of events
* `replay_filter` — events that do nothing to a view may be left out
* `Legal` — every event of the list may occur in the view that the events before it lead to
* `Legal.history` — induction along a legal list, newest event last
-/

/-- The events `E` over the views `V`. -/
structure Ledger (V E : Type) where
  accepts : V → E → Prop
  apply : V → E → V

namespace Ledger

variable {V E : Type} (L : Ledger V E)

def replay (v : V) (es : List E) : V := es.foldl L.apply v

def Legal : V → List E → Prop
  | _, [] => True
  | v, e :: es => L.accepts v e ∧ Legal (L.apply v e) es

@[simp] theorem replay_nil (v : V) : L.replay v [] = v := rfl

@[simp] theorem replay_cons (v : V) (e : E) (es : List E) :
    L.replay v (e :: es) = L.replay (L.apply v e) es := rfl

theorem replay_append (v : V) (es fs : List E) :
    L.replay v (es ++ fs) = L.replay (L.replay v es) fs := List.foldl_append

@[simp] theorem replay_concat (v : V) (es : List E) (e : E) :
    L.replay v (es ++ [e]) = L.apply (L.replay v es) e := L.replay_append v es [e]

variable {L}

/-- Events that do nothing to any view may be left out. -/
theorem replay_filter {p : E → Bool} (hp : ∀ v e, p e = false → L.apply v e = v) :
    ∀ (v : V) (es : List E), L.replay v (es.filter p) = L.replay v es
  | _, [] => rfl
  | v, e :: es => by
    cases he : p e with
    | true => rw [List.filter_cons_of_pos he, replay_cons, replay_cons, replay_filter hp]
    | false =>
      rw [List.filter_cons_of_neg (by simp [he]), replay_cons, hp v e he, replay_filter hp]

theorem legal_append : ∀ {v : V} {es fs : List E},
    L.Legal v (es ++ fs) ↔ L.Legal v es ∧ L.Legal (L.replay v es) fs
  | v, [], fs => by simp [Legal]
  | v, e :: es, fs => by
    rw [List.cons_append, Legal, Legal, legal_append, and_assoc]
    rfl

theorem legal_concat {v : V} {es : List E} {e : E} :
    L.Legal v (es ++ [e]) ↔ L.Legal v es ∧ L.accepts (L.replay v es) e := by
  rw [legal_append]
  simp [Legal]

theorem Legal.filter {p : E → Bool} (hp : ∀ v e, p e = false → L.apply v e = v) :
    ∀ {v : V} {es : List E}, L.Legal v es → L.Legal v (es.filter p)
  | _, [], _ => trivial
  | v, e :: es, ⟨haccepts, hes⟩ => by
    cases he : p e with
    | true =>
      rw [List.filter_cons_of_pos he]
      exact ⟨haccepts, hes.filter hp⟩
    | false =>
      rw [hp v e he] at hes
      rw [List.filter_cons_of_neg (by simp [he])]
      exact hes.filter hp

/-- One more event that may occur. -/
theorem Legal.concat {v : V} {es : List E} {e : E} (h : L.Legal v es)
    (he : L.accepts (L.replay v es) e) : L.Legal v (es ++ [e]) := legal_concat.mpr ⟨h, he⟩

/--
**Induction along a legal list.**

What holds of the empty list, and goes on holding when an event occurs that may, holds of every
legal list.
-/
theorem Legal.history {v : V} {P : List E → Prop} (hnil : P [])
    (hconcat : ∀ es e, L.Legal v es → L.accepts (L.replay v es) e → P es → P (es ++ [e])) :
    ∀ {es : List E}, L.Legal v es → P es := by
  intro es
  induction es using List.reverseRecOn with
  | nil => exact fun _ => hnil
  | append_singleton es e ih =>
    intro h
    obtain ⟨hes, he⟩ := legal_concat.mp h
    exact hconcat es e hes he (ih hes)

end Ledger
