import BridgeExecutor.Properties.Bookkeeping
import Mathlib.Logic.Equiv.Basic

/-!
# The order of delivery

A bridge may deliver the messages of one block in any order.
Two sets are queued if no key occurs twice in the two of them and none is taken, and that says
nothing about which comes first.

* `queueTwo_eq_ok` — when two `_queue` calls succeed, and what they write
* `queueTwo_comm` — the order decides which of the two ids a set gets, and nothing else
-/

namespace BridgeExecutor

open Reentrant BridgeExecutorBase

variable {H X Φ : Type} [DecidableEq H] {K : Keccak H}

/-- `_queue` for `a` and then for `b`, at the same timestamp. -/
def queueTwo (K : Keccak H) (now : UInt256) (a b : Actions) (s : State H X) :
    Except Error (State H X) :=
  match queue K now a s with
  | .error e => .error e
  | .ok s => queue K now b s

/-- The sets with the ids `i` and `j` trade places. -/
def State.exchange (s : State H X) (i j : Nat) : State H X :=
  { s with actionsSets := fun id => s.actionsSets (Equiv.swap i j id) }

theorem queueTwo_eq_ok {now : UInt256} {a b : Actions} {s s' : State H X} :
    queueTwo K now a b s = .ok s' ↔ a.WellFormed ∧ b.WellFormed ∧
      now.toNat + s.delay.toNat < 2 ^ 256 ∧
      ((K.hashes a (now + s.delay) ++ K.hashes b (now + s.delay)).Nodup ∧
        ∀ h ∈ K.hashes a (now + s.delay) ++ K.hashes b (now + s.delay),
          s.queuedActions h = false) ∧
      s' = (s.queued K a (now + s.delay)).queued K b (now + s.delay) := by
  rw [queueTwo, ← Flags.free_append_iff]
  constructor
  · intro h
    split at h
    · cases h
    next s₁ ha =>
    obtain ⟨hwf, hsum, hnd, hfree, rfl⟩ := queue_eq_ok.mp ha
    rw [queue_eq_ok, State.queued_delay, State.queued_queuedActions] at h
    obtain ⟨hwf', -, hnd', hfree', rfl⟩ := h
    exact ⟨hwf, hwf', hsum, ⟨⟨hnd, hfree⟩, hnd', hfree'⟩, rfl⟩
  · rintro ⟨hwf, hwf', hsum, ⟨⟨hnd, hfree⟩, hnd', hfree'⟩, rfl⟩
    rw [queue_eq_ok.mpr ⟨hwf, hsum, hnd, hfree, rfl⟩]
    show queue K now b (s.queued K a (now + s.delay)) = _
    rw [queue_eq_ok, State.queued_delay, State.queued_queuedActions]
    exact ⟨hwf', hsum, hnd', hfree', rfl⟩

/-- What the conditions of `queueTwo_eq_ok` say is the same in both orders. -/
theorem queueTwo_ok_of_swap {now : UInt256} {a b : Actions} {s s' : State H X}
    (h : queueTwo K now a b s = .ok s') :
    queueTwo K now b a s
      = .ok ((s.queued K b (now + s.delay)).queued K a (now + s.delay)) := by
  obtain ⟨hwf, hwf', hsum, ⟨hnd, hfree⟩, -⟩ := queueTwo_eq_ok.mp h
  refine queueTwo_eq_ok.mpr ⟨hwf', hwf, hsum, ⟨?_, ?_⟩, rfl⟩
  · exact List.perm_append_comm.nodup_iff.mp hnd
  · exact fun x hx => hfree x (List.perm_append_comm.mem_iff.mp hx)

theorem queued_queued_actionsSets {s : State H X}
    (hfree : ∀ id, s.actionsSetCounter ≤ id → s.actionsSets id = {}) (a b : Actions)
    (t : UInt256) :
    ((s.queued K a t).queued K b t).actionsSets
      = Function.update (Function.update s.actionsSets s.actionsSetCounter ⟨a, t, false, false⟩)
          (s.actionsSetCounter + 1) ⟨b, t, false, false⟩ := by
  have hfirst := State.queued_actionsSets (K := K) (hfree _ (Nat.le_refl _)) a t
  rw [State.queued_actionsSets, hfirst, State.queued_actionsSetCounter]
  rw [hfirst, State.queued_actionsSetCounter, Function.update_of_ne (Nat.succ_ne_self _)]
  exact hfree _ (Nat.le_succ _)

/-- Two sets are written to two slots that were never used; only the slots are exchanged. -/
theorem queued_queued_comm {s : State H X} {a b : Actions} {t : UInt256}
    (hfree : ∀ id, s.actionsSetCounter ≤ id → s.actionsSets id = {}) :
    { (s.queued K b t).queued K a t with logs := ((s.queued K a t).queued K b t).logs }
      = ((s.queued K a t).queued K b t).exchange s.actionsSetCounter
          (s.actionsSetCounter + 1) := by
  have hflags : ((s.queued K b t).queued K a t).queuedActions
      = ((s.queued K a t).queued K b t).queuedActions := by
    rw [State.queued_queuedActions, State.queued_queuedActions, State.queued_queuedActions,
      State.queued_queuedActions, Flags.taken_taken, Flags.taken_taken,
      Flags.taken_perm List.perm_append_comm]
  rw [State.exchange, State.mk.injEq]
  refine ⟨rfl, rfl, rfl, rfl, rfl, rfl, ?_, hflags, rfl, rfl, rfl⟩
  rw [queued_queued_actionsSets hfree, queued_queued_actionsSets hfree]
  funext id
  by_cases h0 : id = s.actionsSetCounter
  · simp [h0]
  · by_cases h1 : id = s.actionsSetCounter + 1
    · simp [h1]
    · simp [h0, h1, Equiv.swap_apply_of_ne_of_ne]

/--
**The order of two `_queue` calls does not matter.**

At any timestamp they succeed in one order exactly if they succeed in the other, and the final
states differ by an exchange of the two newest sets and in the events emitted, nothing else.
-/
theorem queueTwo_comm {child : Child X Φ} {this : Address} {c : ExecConfig H X Φ}
    (hc : Reachable (executor K child this) Constructed c) (now : UInt256) (a b : Actions) :
    ((∃ s, queueTwo K now a b c.world.state = .ok s) ↔
      ∃ s, queueTwo K now b a c.world.state = .ok s) ∧
    ∀ s s', queueTwo K now a b c.world.state = .ok s →
      queueTwo K now b a c.world.state = .ok s' →
      s.actionsSetCounter = c.world.state.actionsSetCounter + 2 ∧
      { s' with logs := s.logs }
        = s.exchange c.world.state.actionsSetCounter (c.world.state.actionsSetCounter + 1) := by
  refine ⟨⟨fun ⟨_, h⟩ => ⟨_, queueTwo_ok_of_swap h⟩, fun ⟨_, h⟩ => ⟨_, queueTwo_ok_of_swap h⟩⟩, ?_⟩
  intro s s' h h'
  obtain ⟨-, -, -, -, rfl⟩ := queueTwo_eq_ok.mp h
  obtain ⟨-, -, -, -, rfl⟩ := queueTwo_eq_ok.mp h'
  exact ⟨rfl, queued_queued_comm (stored_of_reachable hc).free⟩

/-- Two sets that differ in a value, one second after the queue of the example run. -/
theorem queueTwo_comm_queued :
    ∃ s s', queueTwo Example.keccak 1001 Example.actions
        { Example.actions with values := [1] } Example.queued.world.state = .ok s ∧
      queueTwo Example.keccak 1001 { Example.actions with values := [1] } Example.actions
        Example.queued.world.state = .ok s' ∧
      { s' with logs := s.logs } = s.exchange 1 2 := by
  have hok : queueTwo Example.keccak 1001 Example.actions
      { Example.actions with values := [1] } Example.queued.world.state = .ok _ :=
    queueTwo_eq_ok.mpr ⟨Example.wellFormed_actions, ⟨by decide, rfl, rfl, rfl, rfl⟩,
      by decide, by decide +kernel, rfl⟩
  have hcomm := queueTwo_comm Example.reachable_queued 1001 Example.actions
    { Example.actions with values := [1] }
  obtain ⟨s', hok'⟩ := hcomm.1.mp ⟨_, hok⟩
  exact ⟨_, s', hok, hok', (hcomm.2 _ _ hok hok').2⟩

end BridgeExecutor
