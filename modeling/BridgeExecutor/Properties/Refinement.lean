import BridgeExecutor.Properties.Moves

/-!
# The code makes only these moves

`executor_refines` follows `external` from call to call.  The loop of `execute` reads the set
from storage again after every call; that it finds what it found before is `Sound.evolves`, and
that no index is out of range is `Sound.wellFormed`.
-/

namespace BridgeExecutor

open Reentrant BridgeExecutorBase

variable {H X Φ : Type}

/-! ## The constructor -/

/-- What the constructor has checked, and what it leaves behind. -/
theorem construct_eq_ok {delay gracePeriod minimumDelay maximumDelay : UInt256}
    {guardian : Address} {own : X} {balance : Nat} {s : State H X} :
    construct delay gracePeriod minimumDelay maximumDelay guardian own balance = .ok s ↔
      (minimumGracePeriod ≤ gracePeriod ∧ minimumDelay < maximumDelay ∧
        minimumDelay ≤ delay ∧ delay ≤ maximumDelay) ∧
      s = (((((blank own balance).updateDelay delay).updateGracePeriod
        gracePeriod).updateMinimumDelay minimumDelay).updateMaximumDelay
          maximumDelay).updateGuardian guardian := by
  unfold construct
  by_cases h : gracePeriod < minimumGracePeriod ∨ minimumDelay ≥ maximumDelay ∨
      delay < minimumDelay ∨ delay > maximumDelay
  · rw [if_pos h]
    refine ⟨nofun, fun hok => ?_⟩
    obtain ⟨h1, h2, h3, h4⟩ := hok.1
    rcases h with h | h | h | h
    · exact absurd h1 (BitVec.not_le.mpr h)
    · exact absurd h (BitVec.not_le.mpr h2)
    · exact absurd h3 (BitVec.not_le.mpr h)
    · exact absurd h4 (BitVec.not_le.mpr h)
  · rw [if_neg h]
    simp only [not_or, ge_iff_le, gt_iff_lt] at h
    obtain ⟨h1, h2, h3, h4⟩ := h
    rw [Except.ok.injEq, eq_comm]
    exact ⟨fun hs => ⟨⟨BitVec.not_lt.mp h1, BitVec.not_le.mp h2, BitVec.not_lt.mp h3,
      BitVec.not_lt.mp h4⟩, hs⟩, fun hs => hs.2⟩

/-- A constructed executor stores no set. -/
theorem Constructed.empty {t : UInt256} {s : State H X} (h : Constructed t s) :
    s.actionsSetCounter = 0 ∧ (∀ id, s.actionsSets id = {}) ∧ ∀ x, s.queuedActions x = false := by
  obtain ⟨delay, gracePeriod, minimumDelay, maximumDelay, guardian, own, balance, hs⟩ := h
  obtain ⟨-, rfl⟩ := construct_eq_ok.mp hs
  exact ⟨rfl, fun _ => rfl, fun _ => rfl⟩

theorem Constructed.sound {t : UInt256} {s : State H X} (h : Constructed t s) :
    Sound (Φ := Φ) [] ⟨t, s, []⟩ where
  wellFormed id hid := by
    rw [h.empty.1] at hid
    exact absurd hid (Nat.not_lt_zero _)
  evolves := by simp
  now := by simp
  executing := by simp
  distinct := .nil
  root := by simp

/-! ## The loop of `execute` -/

section

variable [DecidableEq H] {K : Keccak H} {child : Child X Φ} {this : Address}

/-- Issuing a call is a move of the balance. -/
theorem issue_move (q : OutCall) (s : State H X) (ctx : List (ExecOpen H X Φ))
    (w : ExecWorld H X Φ) :
    Move K child this none ctx (w.withState s) ctx (w.withState (issue this q s)) := by
  obtain ⟨b, hb⟩ := issue_eq_setBalance this q s
  rw [hb]
  exact .balance (w := w.withState s)

/--
The loop after its first call, by induction on the number of actions to go.

`o` is the frame as it was when it issued the call that has just been answered.
-/
theorem executeLoop_follows {ctx : List (ExecOpen H X Φ)} {m : Message Φ} {id : Nat}
    (hf : m.fn = .execute id) : ∀ (n : Nat) (rd : List (List UInt8)) (o : ExecOpen H X Φ)
      (w : ExecWorld H X Φ), o.msg = m → Sound (o :: ctx) w →
      o.answered + 1 + n = (w.state.actionsSets id).targets.length →
      (executeLoop K this m.sender id n (o.answered + 1) rd w.state).Follows
        (executor K child this) (Move K child this) Sound ctx m none (o.answered + 1)
        (o :: ctx) w w
  | 0, rd, o, w, ho, hs, hn => by
    subst ho
    exact .finish hf (by simpa using hn)
  | n + 1, rd, o, w, ho, hs, hn => by
    subst ho
    have hid := (hs.executed List.mem_cons_self hf).1
    obtain ⟨a, ha⟩ := (hs.wellFormed id hid).action? (i := o.answered + 1) (by omega)
    have hmove : Move K child this none (o :: ctx) w _ _ := .next hf ha
    rw [executeLoop_succ ha]
    split
    · trivial
    · refine ⟨hmove, issue_move .., fun w' ok d hs' => ?_⟩
      unfold afterCall
      cases verifyCallResult ok d with
      | error e => trivial
      | ok data =>
        -- the arrays are those of the world in which the call was issued
        have harr := (hs'.evolves _ List.mem_cons_self).actions id
          (by simpa [State.cleared, State.setFlags] using hid)
        refine executeLoop_follows hf n _ ⟨o.msg, o.answered + 1,
          w.withState (w.state.cleared K a (w.state.actionsSets id).executionTime)⟩ w' rfl hs' ?_
        rw [harr]
        show o.answered + 1 + 1 + n = (w.state.actionsSets id).targets.length
        omega

/-- `execute` from its guards to the end. -/
theorem execute_follows {ctx : List (ExecOpen H X Φ)} {m : Message Φ} {id : Nat}
    {w : ExecWorld H X Φ} (hf : m.fn = .execute id) (hs : Sound ctx w) :
    (external K child this w.now m w.state).Follows (executor K child this) (Move K child this)
      Sound ctx m (some m) 0 ctx w (w.record m) := by
  cases hg : requireExecutable w.now w.state id with
  | error e =>
    rw [external_execute_error hf hg]
    trivial
  | ok u =>
    obtain ⟨hq, ht⟩ := requireExecutable_eq_ok.mp hg
    obtain ⟨-, a, n, ha, hn⟩ := hs.executable hg
    have hmove : Move K child this (some m) ctx w _ _ := .begin hf hq ht ha
    rw [external_execute_ok hf hg ha hn]
    split
    · trivial
    refine ⟨hmove, issue_move .., fun w' ok d hs' => ?_⟩
    unfold afterCall
    cases verifyCallResult ok d with
    | error e => trivial
    | ok data =>
      have harr := (hs'.evolves _ List.mem_cons_self).actions id
        ((hs.keep hmove).executed List.mem_cons_self hf).1
      refine executeLoop_follows hf n _
        ⟨m, 0, (w.record m).withState (w.state.started K this m.toMsg id a)⟩ w' rfl hs' ?_
      rw [harr]
      show 0 + 1 + n = ((w.state.started K this m.toMsg id a).actionsSets id).targets.length
      have hst : ((w.state.started K this m.toMsg id a).actionsSets id).targets
          = (w.state.actionsSets id).targets := by simp
      rw [hst, hn]
      omega

/-! ## The refinement -/

/-- **The executor makes only the moves of `Move`, relying on `Sound`.** -/
theorem executor_refines (K : Keccak H) (child : Child X Φ) (this : Address) :
    Refines (executor K child this) Constructed (Move K child this) Sound where
  init h := h.sound
  keep hm h := h.keep hm
  call {ctx w m} hs hsend := by
    show (external K child this w.now m w.state).Follows _ _ _ _ _ _ _ _ _ _
    cases hp : plain K child this w.now m.toMsg w.state m.fn with
    | some r =>
      rw [external_plain hp]
      cases r with
      | error e => trivial
      | ok s => exact .write hsend (Writes.of_plain hp)
    | none =>
      cases hf : m.fn with
      | execute id => exact execute_follows hf hs
      | executeDelegateCall target data =>
        rw [external_executeDelegateCall hf]
        split
        · trivial
        · next hthis =>
          have hthis' : m.sender = this := not_not.mp hthis
          have hdel : Move K child this (some m) ctx w (⟨m, 0, w.record m⟩ :: ctx) (w.record m) :=
            .delegate hf hthis' (hsend hthis')
          have hissue : Move K child this none (⟨m, 0, w.record m⟩ :: ctx) (w.record m)
              (⟨m, 0, w.record m⟩ :: ctx)
              ((w.record m).withState (issue this ⟨true, target, m.value, data⟩ w.state)) :=
            issue_move ⟨true, target, m.value, data⟩ w.state _ (w.record m)
          refine ⟨hdel, hissue, fun w' ok d hs' => ?_⟩
          exact .finishDelegate hf
      | _ => rw [hf] at hp; simp [plain] at hp
  drift {ctx w a s} hs ha hd := by
    cases hd with
    | balance _ => exact .balance
    | log => exact .log
  advance _ ht := .advance ht

/-- Every reachable configuration is sound. -/
theorem sound_of_reachable {c : ExecConfig H X Φ}
    (hc : Reachable (executor K child this) Constructed c) : Sound (opens c.stack) c.world :=
  ((executor_refines K child this).reachable hc).2

end

end BridgeExecutor
