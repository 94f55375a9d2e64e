import BridgeExecutor.Properties.Lifecycle
import BridgeExecutor.Properties.Timelock
import BridgeExecutor.Properties.Value

/-!
# No queued set is stuck

Safety alone would hold of an executor that does nothing.  Between two transactions a `Queued` set
can be ended: the guardian can cancel it at once, and anybody can wait for its time, send the
ether that it needs and execute it, if the targets are others and accept their calls.

* `fund` — the balance can be raised to any amount that there can be
* `execute_succeeds` — with enough of it `execute` ends the set
* `queued_can_end` — both ways
-/

namespace BridgeExecutor

open Reentrant BridgeExecutorBase

variable {H X Φ : Type} [DecidableEq H] {K : Keccak H} {child : Child X Φ} {this : Address}

/-! ## Ether -/

/-- A message without meaning for the messenger. -/
def plainMessage (sender : Address) (value : UInt256) (fn : Fn Φ) : Message Φ where
  sender := sender
  value := value
  xDomainMessageSender := .ok 0
  fn := fn

/-- A message to a function without outgoing calls, between two transactions. -/
theorem step_plain {m : Message Φ} {w : ExecWorld H X Φ} {s : State H X} (hm : m.sender ≠ this)
    (h : plain K child this w.now m.toMsg w.state m.fn = some (.ok s)) :
    Step (executor K child this) ⟨w, []⟩ (.call m) ⟨(w.record m).withState s, []⟩ :=
  .callReturns (show (executor K child this).MayCall [] m.sender from hm) (external_plain h)

theorem step_receiveFunds {account : Address} (haccount : account ≠ this) (value : UInt256)
    (w : ExecWorld H X Φ) :
    Step (executor K child this) ⟨w, []⟩ (.call (plainMessage account value .receiveFunds))
      ⟨(w.record (plainMessage account value .receiveFunds)).withState
        (w.state.setBalance (w.state.balance + value.toNat)), []⟩ := by
  have hreceive : w.state.receive this (plainMessage (Φ := Φ) account value .receiveFunds).toMsg
      = w.state.setBalance (w.state.balance + value.toNat) := if_neg haccount
  refine step_plain haccount ?_
  rw [← hreceive]
  rfl

/-- Anybody can raise the balance to any amount that there can be. -/
theorem fund {account : Address} (haccount : account ≠ this) (w : ExecWorld H X Φ)
    (b : UInt256) : ∃ w' : ExecWorld H X Φ, Steps (executor K child this) ⟨w, []⟩ ⟨w', []⟩ ∧
      w'.now = w.now ∧ w'.state = w.state.setBalance (max w.state.balance b.toNat) := by
  rcases Nat.le_total b.toNat w.state.balance with hle | hle
  · refine ⟨w, .refl, rfl, ?_⟩
    rw [Nat.max_eq_left hle]
    rfl
  · have hvalue : (BitVec.ofNat 256 (b.toNat - w.state.balance)).toNat
        = b.toNat - w.state.balance := by
      rw [BitVec.toNat_ofNat]
      exact Nat.mod_eq_of_lt (Nat.lt_of_le_of_lt (Nat.sub_le _ _) b.isLt)
    have hsend : Step (executor K child this) ⟨w, []⟩ _ _ :=
      step_receiveFunds haccount (BitVec.ofNat 256 (b.toNat - w.state.balance)) w
    refine ⟨_, .single ⟨_, hsend⟩, rfl, ?_⟩
    rw [World.withState_state, hvalue, Nat.max_eq_right hle, Nat.add_sub_cancel' hle]

/-! ## Execution -/

/-- A frame of `execute` that returns has executed its set. -/
theorem continues_executed {E : State H X → State H X → Prop} {c c' : ExecConfig H X Φ}
    {s : State H X} (hc : Reachable (executor K child this) Constructed c)
    (h : Continues (executor K child this) E c (.ok s) c') :
    ∀ f st id, c.stack = .frame f :: st → f.msg.fn = .execute id →
      id < s.actionsSetCounter ∧ (s.actionsSets id).executed = true := by
  generalize hout : Except.ok s = out at h
  induction h with
  | @returns w w' f st d s' hs hE hk =>
    cases hout
    rintro _ _ id ⟨⟩ hf
    have hreach := hs.reachable hc
    obtain ⟨-, -, n, rd, -, hloop⟩ := resumes_of_reachable hreach hf d
    obtain ⟨-, rfl⟩ := executeLoop_eq_done (hloop.symm.trans hk)
    exact (sound_of_reachable hreach).executed List.mem_cons_self hf
  | reverts _ _ _ => cases hout
  | @suspends w w' f st d s' q k out c hs hE hk hrest ih =>
    rintro _ _ id ⟨⟩ hf
    have hstep : Step (executor K child this) ⟨w', .frame f :: st⟩ (.resume true d)
        ⟨w'.withState ((executor K child this).issue q s'),
          .frame (f.next true d (w'.withState s') q k) :: st⟩ := .answerSuspends hk
    exact ih (.step (hs.reachable hc) hstep) hout _ _ id rfl hf

/-- **With enough ether `execute` ends the set**, among callees that report success. -/
theorem execute_succeeds {w : ExecWorld H X Φ}
    (hc : Reachable (executor K child this) Constructed ⟨w, []⟩) {account : Address}
    (haccount : account ≠ this) {id : Nat} (hg : requireExecutable w.now w.state id = .ok ())
    (hbalance : Budget.spend Action.needed (Action.spent this)
      (w.state.actionsSets id).toList w.state.balance ≠ none) :
    ∃ c', Undisturbed (executor K child this) KeepsBalance ⟨w, []⟩
        (plainMessage account 0 (.execute id)) (.ok c'.world.state) c' ∧ c'.stack = [] ∧
      getCurrentState c'.world.now c'.world.state id = .ok .executed := by
  obtain ⟨m, hm⟩ : ∃ m : Message Φ, m = plainMessage account 0 (.execute id) := ⟨_, rfl⟩
  have hf : m.fn = .execute id := by rw [hm]; rfl
  have hsender : m.sender ≠ this := by rw [hm]; exact haccount
  have hmay : (executor K child this).MayCall [] ((executor K child this).sender m) := hsender
  obtain ⟨out, c', h⟩ := exists_undisturbed (C := executor K child this) (E := KeepsBalance)
    (c := ⟨w, []⟩) (fun _ => rfl) ([] : List UInt8) hmay
  have hreceive : (w.state.receive this m.toMsg).balance = w.state.balance := by
    rw [State.receive, if_neg hsender, hm]
    rfl
  have hsettles := undisturbed_settles hc hf hg h
  obtain ⟨r, hspend⟩ := Option.ne_none_iff_exists'.mp hbalance
  rw [Settles, hreceive, hspend] at hsettles
  obtain ⟨s, rfl, -⟩ := hsettles
  have hdone : id < s.actionsSetCounter ∧ (s.actionsSets id).executed = true := by
    obtain ⟨-, a, n, ha, hn⟩ := (sound_of_reachable hc).executable hg
    have hentry : (executor K child this).entry w.now m w.state = _ :=
      external_execute_ok hf hg ha hn
    cases h with
    | returns _ he =>
      rw [he] at hentry
      split at hentry <;> cases hentry
    | suspends hm he hrest =>
      exact continues_executed (.step hc (.callSuspends hm he)) hrest _ _ id rfl hf
  obtain rfl : c'.world.state = s := h.of_ok
  rw [← hm]
  refine ⟨c', h, h.stack, ?_⟩
  exact (settled_of_reachable (h.steps.reachable hc)).getCurrentState_eq (k := .executed) |>.mpr
    hdone

/-! ## Both ways -/

/--
**A queued set can be ended at once by the guardian, and in time by anybody.**

The guardian needs nothing for it, unless it is the executor itself.  Everybody else may have to
wait, and to send ether until there is enough for the values of the actions, and then depends on
the targets: they have to report success and leave the balance alone.  An action with the executor
as its target runs the code of the executor, which may revert for ever; such sets are left out.
-/
theorem queued_can_end {c : ExecConfig H X Φ}
    (hc : Reachable (executor K child this) Constructed c) (hempty : c.stack = []) {id : Nat}
    (hq : getCurrentState c.world.now c.world.state id = .ok .queued) :
    (c.world.state.guardian ≠ this → ∃ c',
      Step (executor K child this) c
        (.call (plainMessage c.world.state.guardian 0 (.cancel id))) c' ∧
      c'.stack = [] ∧ getCurrentState c'.world.now c'.world.state id = .ok .canceled) ∧
    ∀ (account : Address) (b : UInt256), account ≠ this →
      (∀ a ∈ (c.world.state.actionsSets id).toList, a.target ≠ this) →
      Budget.spend Action.needed (Action.spent this)
        (c.world.state.actionsSets id).toList b.toNat ≠ none →
      ∃ w c', Steps (executor K child this) c ⟨w, []⟩ ∧
        w.state = c.world.state.setBalance (max c.world.state.balance b.toNat) ∧
        Undisturbed (executor K child this) KeepsBalance ⟨w, []⟩
          (plainMessage account 0 (.execute id)) (.ok c'.world.state) c' ∧
        c'.stack = [] ∧ getCurrentState c'.world.now c'.world.state id = .ok .executed := by
  obtain ⟨w, st⟩ := c
  obtain rfl : st = [] := hempty
  obtain ⟨hid, hlive, hsum, hend⟩ := getCurrentState_eq_queued.mp hq
  refine ⟨fun hguardian => ?_, fun account b haccount _ hfunds => ?_⟩
  · have hwf := (sound_of_reachable hc).wellFormed id hid
    have hcancel : BridgeExecutorBase.cancel K w.now w.state.guardian id w.state
        = .ok (w.state.cancel K id) :=
      cancel_eq_ok.mpr ⟨rfl, hq, fun j hj => hwf.action? hj, rfl⟩
    refine ⟨_, step_plain hguardian (s := w.state.cancel K id) ?_, rfl, ?_⟩
    · exact congrArg some (nonPayable_eq_ok.mpr ⟨rfl, hcancel⟩)
    · refine getCurrentState_eq_canceled.mpr ⟨hid, ?_⟩
      show (Function.update w.state.actionsSets id _ id).canceled = true
      rw [Function.update_self]
  · -- wait for the time of the set, unless it has come
    obtain ⟨t, hnow, hstart, hstill⟩ : ∃ t, w.now ≤ t ∧
        (w.state.actionsSets id).executionTime ≤ t ∧
        t.toNat ≤ (w.state.actionsSets id).executionTime.toNat + w.state.gracePeriod.toNat := by
      rcases BitVec.le_total w.now (w.state.actionsSets id).executionTime with hle | hle
      · exact ⟨_, hle, BitVec.le_refl _, Nat.le_add_right _ _⟩
      · exact ⟨_, BitVec.le_refl _, hle, hend⟩
    have hwait : Step (executor K child this) ⟨w, []⟩ .advance ⟨{ w with now := t }, []⟩ :=
      .advance hnow
    obtain ⟨w', hfund, hnow', hstate'⟩ : ∃ w' : ExecWorld H X Φ,
        Steps (executor K child this) ⟨{ w with now := t }, []⟩ ⟨w', []⟩ ∧ w'.now = t ∧
        w'.state = w.state.setBalance (max w.state.balance b.toNat) := fund haccount _ b
    have hg : requireExecutable w'.now w'.state id = .ok () := by
      rw [hnow', hstate']
      exact (requireExecutable_iff (s := w.state) hid hsum).mpr ⟨hlive, hstart, hstill⟩
    have hbalance : Budget.spend Action.needed (Action.spent this)
        (w'.state.actionsSets id).toList w'.state.balance ≠ none := by
      rw [hstate']
      exact Budget.spend_mono (Action.spent_le this) (Nat.le_max_right _ _) hfunds
    have hsteps : Steps (executor K child this) ⟨w, []⟩ ⟨w', []⟩ := .head ⟨_, hwait⟩ hfund
    obtain ⟨c', hexecute, hempty, hdone⟩ :=
      execute_succeeds (hsteps.reachable hc) haccount hg hbalance
    exact ⟨w', c', hsteps, hstate', hexecute, hempty, hdone⟩

/-- The set of the example run, before its time has come. -/
theorem queued_can_end_queued : ∃ w c',
    Steps (executor Example.keccak Example.child Example.this) Example.queued ⟨w, []⟩ ∧
    w.state = Example.queued.world.state ∧
    Undisturbed (executor Example.keccak Example.child Example.this) KeepsBalance ⟨w, []⟩
      (plainMessage 9 0 (.execute 0)) (.ok c'.world.state) c' ∧
    c'.stack = [] ∧ getCurrentState c'.world.now c'.world.state 0 = .ok .executed :=
  (queued_can_end Example.reachable_queued rfl rfl).2 9 0 (by decide) (by decide) (by decide)

end BridgeExecutor
