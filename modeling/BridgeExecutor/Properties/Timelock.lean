import BridgeExecutor.Properties.History

/-!
# The timelock

The execution time of a set is fixed when the set is queued; the end of its window moves with
the grace period in force.

* `timelock_window` — when `execute` passes its guards, for every set of every run
* `no_overflow` — the two checked additions cannot overflow while the delay and the grace period
  stay below bounds that leave room for a timestamp
* `overflow_reachable` — the code enforces no such bounds, and an executor can be constructed
  whose `_queue`, or whose `cancel` and `execute`, panic for ever
-/

namespace BridgeExecutor

open Reentrant BridgeExecutorBase

variable {H X Φ : Type}

/-! ## The window -/

/-- Both guards of `execute`, if the end of the window can be computed. -/
theorem requireExecutable_iff {t : UInt256} {s : State H X} {id : Nat}
    (hid : id < s.actionsSetCounter)
    (hsum : (s.actionsSets id).executionTime.toNat + s.gracePeriod.toNat < 2 ^ 256) :
    requireExecutable t s id = .ok () ↔ (s.actionsSets id).Live ∧
      (s.actionsSets id).executionTime ≤ t ∧
      t.toNat ≤ (s.actionsSets id).executionTime.toNat + s.gracePeriod.toNat := by
  rw [requireExecutable_eq_ok, getCurrentState_eq_queued]
  constructor
  · rintro ⟨⟨-, hlive, -, hend⟩, hstart⟩
    exact ⟨hlive, hstart, hend⟩
  · rintro ⟨hlive, hstart, hend⟩
    exact ⟨⟨hid, hlive, hsum, hend⟩, hstart⟩

/-- The sets that are being executed have matured. -/
def Matured (ctx : List (ExecOpen H X Φ)) (w : ExecWorld H X Φ) : Prop :=
  ∀ o ∈ ctx, ∀ id, o.msg.fn = .execute id → (w.state.actionsSets id).executionTime ≤ w.now

/-- The time of a set that is being executed is fixed. -/
theorem Matured.later {ctx : List (ExecOpen H X Φ)} {w w' : ExecWorld H X Φ} (h : Matured ctx w)
    (hs : Sound ctx w) (hev : w.state.Evolves w'.state) (hn : w.now ≤ w'.now) :
    Matured ctx w' := by
  intro o ho id hf
  rw [hev.executionTime id (hs.executed ho hf).1]
  exact BitVec.le_trans (h o ho id hf) hn

section

variable [DecidableEq H] {K : Keccak H} {child : Child X Φ} {this : Address}

theorem Matured.keep {l : Option (Message Φ)} {ctx ctx' : List (ExecOpen H X Φ)}
    {w w' : ExecWorld H X Φ} (hm : Move K child this l ctx w ctx' w') (hs : Sound ctx w)
    (h : Matured ctx w) : Matured ctx' w' := by
  have hlater := h.later hs hm.evolves hm.now_le
  cases hm with
  | write _ _ => exact hlater
  | @begin _ _ m id a hf hq ht ha =>
    intro o ho id' hf'
    rcases List.mem_cons.mp ho with rfl | ho
    · cases hf.symm.trans hf'
      show ((w.state.started K this m.toMsg id a).actionsSets id).executionTime ≤ w.now
      rw [started_actionsSets, Function.update_self]
      exact ht
    · exact hlater o ho id' hf'
  | delegate hf _ _ =>
    intro o ho id' hf'
    rcases List.mem_cons.mp ho with rfl | ho
    · exact nomatch hf.symm.trans hf'
    · exact hlater o ho id' hf'
  | @next o ctx _ id a hf ha =>
    intro o' ho' id' hf'
    rcases List.mem_cons.mp ho' with rfl | ho'
    · exact hlater o List.mem_cons_self id' hf'
    · exact hlater o' (List.mem_cons_of_mem _ ho') id' hf'
  | finish _ _ => exact fun o ho => hlater o (List.mem_cons_of_mem _ ho)
  | finishDelegate _ => exact fun o ho => hlater o (List.mem_cons_of_mem _ ho)
  | balance => exact hlater
  | log => exact hlater
  | advance _ => exact hlater

theorem matured_of_reachable {c : ExecConfig H X Φ}
    (hc : Reachable (executor K child this) Constructed c) :
    Matured (opens c.stack) c.world :=
  (executor_refines K child this).invariant (I := Matured) (fun _ _ ho => nomatch ho)
    (fun hm hs h => h.keep hm hs) hc

/--
**The exact window of a set.**

`q` is the `_queue` call that has created the set `id`.
-/
theorem timelock_window {c : ExecConfig H X Φ}
    (hc : Reachable (executor K child this) Constructed c) {id : Nat} {q : Creation H X Φ}
    (hq : (creations child this c.world.journal)[id]? = some q) :
    -- fixed when the set was queued
    ((c.world.state.actionsSets id).executionTime.toNat
        = q.record.now.toNat + q.record.pre.delay.toNat ∧
      q.record.pre.minimumDelay ≤ q.record.pre.delay ∧
      q.record.pre.delay ≤ q.record.pre.maximumDelay) ∧
    -- not changed afterwards
    (∀ a c', Step (executor K child this) c a c' → ¬ a.Undoes →
      (c'.world.state.actionsSets id).executionTime
        = (c.world.state.actionsSets id).executionTime) ∧
    (c.stack = [] → ∀ c', Steps (executor K child this) c c' →
      (c'.world.state.actionsSets id).executionTime
        = (c.world.state.actionsSets id).executionTime) ∧
    -- both guards
    (∀ t : UInt256, (c.world.state.actionsSets id).executionTime.toNat
        + c.world.state.gracePeriod.toNat < 2 ^ 256 →
      (requireExecutable t c.world.state id = .ok () ↔ (c.world.state.actionsSets id).Live ∧
        (c.world.state.actionsSets id).executionTime ≤ t ∧
        t.toNat ≤ (c.world.state.actionsSets id).executionTime.toNat
          + c.world.state.gracePeriod.toNat)) ∧
    -- no action runs early
    (∀ o ∈ opens c.stack, o.msg.fn = .execute id →
      q.record.now.toNat + q.record.pre.delay.toNat ≤ c.world.now.toNat) ∧
    -- the window is ten minutes long at least
    (∀ t : UInt256, (c.world.state.actionsSets id).executionTime.toNat
        + c.world.state.gracePeriod.toNat < 2 ^ 256 →
      (c.world.state.actionsSets id).Live →
      (c.world.state.actionsSets id).executionTime ≤ t →
      t.toNat ≤ (c.world.state.actionsSets id).executionTime.toNat + 600 →
      requireExecutable t c.world.state id = .ok ()) := by
  have hst := stored_of_reachable hc
  obtain ⟨-, htime⟩ := hst.sets id q hq
  have hvalid := hst.valid q (List.mem_of_getElem? hq)
  have hid : id < c.world.state.actionsSetCounter := by
    rw [hst.counter]
    exact (List.getElem?_eq_some_iff.mp hq).1
  have hnat : (c.world.state.actionsSets id).executionTime.toNat
      = q.record.now.toNat + q.record.pre.delay.toNat := by
    rw [htime, Creation.executionTime, toNat_add_of_lt hvalid.no_overflow]
  refine ⟨⟨hnat, hvalid.config.minimum_le, hvalid.config.le_maximum⟩, ?_, ?_,
    fun t hsum => requireExecutable_iff hid hsum, ?_, ?_⟩
  · intro a c' hs ha
    exact (evolves_of_step hc hs ha).executionTime id hid
  · intro hempty c' hsteps
    exact (later_of_steps hc hempty hsteps).evolves.executionTime id hid
  · intro o ho hf
    rw [← hnat]
    exact matured_of_reachable hc o ho id hf
  · intro t hsum hlive hstart hend
    have hgrace : (600 : UInt256).toNat ≤ c.world.state.gracePeriod.toNat :=
      (validConfig_of_reachable hc).gracePeriod
    have h600 : (600 : UInt256).toNat = 600 := rfl
    exact (requireExecutable_iff hid hsum).mpr ⟨hlive, hstart, by omega⟩

/-- The set of the example run was executable from 1100 to 1700. -/
theorem timelock_window_queued :
    requireExecutable 1100 Example.queued.world.state 0 = .ok () ∧
      requireExecutable 1700 Example.queued.world.state 0 = .ok () ∧
      requireExecutable 1701 Example.queued.world.state 0 ≠ .ok () := by
  have hfirst : ∃ q, (creations Example.child Example.this
      Example.queued.world.journal)[0]? = some q := ⟨_, rfl⟩
  obtain ⟨q, hq⟩ := hfirst
  obtain ⟨-, -, -, hwindow, -, -⟩ := timelock_window Example.reachable_queued hq
  refine ⟨(hwindow 1100 (by decide)).mpr ⟨⟨rfl, rfl⟩, by decide, by decide⟩,
    (hwindow 1700 (by decide)).mpr ⟨⟨rfl, rfl⟩, by decide, by decide⟩, fun h => ?_⟩
  exact absurd ((hwindow 1701 (by decide)).mp h).2.2 (by decide)

/-! ## Overflow -/

theorem queueLoop_ne_panicOverflow {a : Actions} {t : UInt256} : ∀ {n i : Nat} {f : H → Bool},
    queueLoop K a t n i f ≠ .error .panicOverflow
  | 0, _, _ => nofun
  | n + 1, i, f => by
    unfold queueLoop
    split
    · nofun
    · split
      · nofun
      · exact queueLoop_ne_panicOverflow

theorem cancelLoop_ne_panicOverflow {a : ActionsSet} : ∀ {n i : Nat} {f : H → Bool},
    cancelLoop K a n i f ≠ .error .panicOverflow
  | 0, _, _ => nofun
  | n + 1, i, f => by
    unfold cancelLoop
    split
    · nofun
    · exact cancelLoop_ne_panicOverflow

/-- The loop of `execute` adds nothing up. -/
theorem executeLoop_ne_panicOverflow {sender : Address} {id : Nat} : ∀ {n i : Nat}
    {rd : List (List UInt8)} {s : State H X},
    executeLoop K this sender id n i rd s ≠ .fail .panicOverflow
  | 0, _, _, _ => nofun
  | n + 1, i, rd, s => by
    cases ha : (s.actionsSets id).action? i with
    | none =>
      rw [executeLoop]
      simp [ha]
    | some a =>
      rw [executeLoop_succ ha]
      split
      · rintro ⟨⟩
      · rintro ⟨⟩

/-- `_queue` panics for its addition only. -/
theorem queue_ne_panicOverflow {now : UInt256} {a : Actions} {s : State H X}
    (hsum : now.toNat + s.delay.toNat < 2 ^ 256) :
    queue K now a s ≠ .error .panicOverflow := by
  unfold queue
  rw [checkedAdd_of_lt hsum]
  split
  · nofun
  split
  · nofun
  intro h
  dsimp only at h
  cases hl : queueLoop K a (now + s.delay) a.targets.length 0 s.queuedActions with
  | error e =>
    rw [hl] at h
    cases h
    exact queueLoop_ne_panicOverflow hl
  | ok g => rw [hl] at h; cases h

end

/-- `getCurrentState` answers for every stored set whose end can be computed. -/
theorem getCurrentState_eq_ok {t : UInt256} {s : State H X} {id : Nat}
    (hid : id < s.actionsSetCounter)
    (hsum : (s.actionsSets id).executionTime.toNat + s.gracePeriod.toNat < 2 ^ 256) :
    ∃ st, getCurrentState t s id = .ok st := by
  have h := getCurrentState_reports t s id
  generalize getCurrentState t s id = r at h
  cases h with
  | invalid hge => exact absurd hid (Nat.not_lt.mpr hge)
  | overflow _ _ hover => exact absurd hsum hover
  | _ => exact ⟨_, rfl⟩

/-- Neither guard panics if the ends of all stored sets can be computed. -/
theorem requireQueued_ne_panicOverflow {t : UInt256} {s : State H X} {id : Nat}
    (hsum : id < s.actionsSetCounter →
      (s.actionsSets id).executionTime.toNat + s.gracePeriod.toNat < 2 ^ 256) :
    requireQueued t s id ≠ .error .panicOverflow := by
  intro h
  unfold requireQueued at h
  by_cases hid : id < s.actionsSetCounter
  · obtain ⟨st, hst⟩ := getCurrentState_eq_ok (t := t) hid (hsum hid)
    rw [hst] at h
    cases st <;> cases h
  · rw [Reports.eq (.invalid (Nat.le_of_not_lt hid))] at h
    cases h

theorem requireExecutable_ne_panicOverflow {t : UInt256} {s : State H X} {id : Nat}
    (hsum : id < s.actionsSetCounter →
      (s.actionsSets id).executionTime.toNat + s.gracePeriod.toNat < 2 ^ 256) :
    requireExecutable t s id ≠ .error .panicOverflow := by
  intro h
  unfold requireExecutable at h
  split at h
  · next e he =>
    cases h
    exact requireQueued_ne_panicOverflow hsum he
  · split at h <;> cases h

section

variable [DecidableEq H] {K : Keccak H} {child : Child X Φ} {this : Address}

theorem cancel_ne_panicOverflow {t : UInt256} {sender : Address} {s : State H X} {id : Nat}
    (hsum : id < s.actionsSetCounter →
      (s.actionsSets id).executionTime.toNat + s.gracePeriod.toNat < 2 ^ 256) :
    BridgeExecutorBase.cancel K t sender id s ≠ .error .panicOverflow := by
  intro h
  unfold BridgeExecutorBase.cancel onlyGuardian at h
  split at h
  · cases h
  cases hq : requireQueued t s id with
  | error e =>
    rw [hq] at h
    cases h
    exact requireQueued_ne_panicOverflow hsum hq
  | ok u =>
    rw [hq] at h
    dsimp only at h
    cases hl : cancelLoop K { s.actionsSets id with canceled := true }
        (s.actionsSets id).targets.length 0 s.queuedActions with
    | error e =>
      rw [hl] at h
      cases h
      exact cancelLoop_ne_panicOverflow hl
    | ok g => rw [hl] at h; cases h

theorem execute_ne_panicOverflow {t : UInt256} {sender : Address} {s : State H X} {id : Nat}
    (hsum : id < s.actionsSetCounter →
      (s.actionsSets id).executionTime.toNat + s.gracePeriod.toNat < 2 ^ 256) :
    execute K this t sender id s ≠ .fail .panicOverflow := by
  intro h
  unfold execute at h
  split at h
  · next e he =>
    cases h
    exact requireExecutable_ne_panicOverflow hsum he
  · exact executeLoop_ne_panicOverflow h

/-- A running `execute` does not panic either. -/
theorem execute_answer_ne_panicOverflow {f : ExecFrame H X Φ} {id : Nat}
    (h : Dispatching K this id f) (s : State H X) (ok : Bool) (d : List UInt8) :
    f.k s ok d ≠ .fail .panicOverflow := by
  intro hk
  obtain ⟨n, -, hcont⟩ := h.rest
  rw [hcont, afterCall] at hk
  split at hk
  · next e hv =>
    cases hk
    exact verifyCallResult_ne_panic.2 hv
  · exact executeLoop_ne_panicOverflow hk

/--
**No overflow below the bounds `D` and `G`.**

The delay did not exceed `D` when a set was queued and does not now, the grace period does not
exceed `G` now, and a timestamp, `D` and `G` together fit into a word.
-/
theorem no_overflow {c : ExecConfig H X Φ}
    (hc : Reachable (executor K child this) Constructed c) {D G : Nat}
    (hbound : 2 ^ 64 + D + G ≤ 2 ^ 256) (hnow : c.world.now.toNat < 2 ^ 64)
    (hpast : ∀ q ∈ creations child this c.world.journal, q.record.pre.delay.toNat ≤ D)
    (hdelay : c.world.state.delay.toNat ≤ D) (hgrace : c.world.state.gracePeriod.toNat ≤ G)
    {t : UInt256} (ht : t.toNat < 2 ^ 64) :
    t.toNat + c.world.state.delay.toNat < 2 ^ 256 ∧
    (∀ id, id < c.world.state.actionsSetCounter →
      (c.world.state.actionsSets id).executionTime.toNat + c.world.state.gracePeriod.toNat
        < 2 ^ 256 ∧ ∃ st, getCurrentState t c.world.state id = .ok st) ∧
    (∀ a, queue K t a c.world.state ≠ .error .panicOverflow) ∧
    (∀ sender id, BridgeExecutorBase.cancel K t sender id c.world.state
      ≠ .error .panicOverflow) ∧
    (∀ (msg : Msg) id, execute K this t msg.sender id (c.world.state.receive this msg)
      ≠ .fail .panicOverflow) ∧
    (∀ f, Level.frame f ∈ c.stack → ∀ id, f.msg.fn = .execute id → ∀ s ok d,
      f.k s ok d ≠ .fail .panicOverflow) := by
  have hst := stored_of_reachable hc
  have hsum : t.toNat + c.world.state.delay.toNat < 2 ^ 256 := by omega
  have hend : ∀ id, id < c.world.state.actionsSetCounter →
      (c.world.state.actionsSets id).executionTime.toNat + c.world.state.gracePeriod.toNat
        < 2 ^ 256 := by
    intro id hid
    obtain ⟨q, -, hmem, -, htime⟩ := hst.creation hid
    have hvalid := hst.valid q hmem
    have hqnow : q.record.now.toNat ≤ c.world.now.toNat := hvalid.le_now
    have hqdelay := hpast q hmem
    rw [htime, Creation.executionTime, toNat_add_of_lt hvalid.no_overflow]
    omega
  refine ⟨hsum, fun id hid => ⟨hend id hid, getCurrentState_eq_ok hid (hend id hid)⟩,
    fun a => queue_ne_panicOverflow hsum, fun sender id => cancel_ne_panicOverflow (hend id),
    fun msg id => execute_ne_panicOverflow (by simpa using hend id), ?_⟩
  intro f hf id hfn s ok d
  exact execute_answer_ne_panicOverflow (dispatching_of_reachable hc f hf id hfn) s ok d

/-- The example run stays below a year of delay and of grace. -/
theorem no_overflow_running :
    ∃ st, getCurrentState 2000 Example.running.world.state 0 = .ok st := by
  have hpast : ∀ q ∈ creations Example.child Example.this Example.running.world.journal,
      q.record.pre.delay.toNat ≤ 31536000 := by
    intro q hq
    cases List.mem_singleton.mp hq
    decide
  have h := no_overflow (D := 31536000) (G := 31536000) Example.reachable_running (by decide)
    (by decide) hpast (by decide) (by decide) (t := 2000) (by decide)
  exact (h.2.1 0 (by decide)).2

end

/-! ## Without the bounds -/

namespace Example

/-- Delays of any length are allowed, and the longest one is in force. -/
def longestDelay : State (List UInt8) L2Storage :=
  (((((blank ⟨governance⟩ 0).updateDelay (BitVec.allOnes 256)).updateGracePeriod
    600).updateMinimumDelay 0).updateMaximumDelay (BitVec.allOnes 256)).updateGuardian 7

/-- The grace period never ends. -/
def longestGracePeriod : State (List UInt8) L2Storage :=
  (((((blank ⟨governance⟩ 0).updateDelay 100).updateGracePeriod
    (BitVec.allOnes 256)).updateMinimumDelay 0).updateMaximumDelay 200).updateGuardian 7

def queuedForever : ExecConfig (List UInt8) L2Storage L2Fn :=
  ⟨((World.mk 1000 longestGracePeriod []).record queueMessage).withState
    (longestGracePeriod.queued keccak actions 1100), []⟩

theorem reachable_longestDelay :
    Reachable (executor keccak child this) Constructed ⟨⟨1000, longestDelay, []⟩, []⟩ :=
  .init ⟨BitVec.allOnes 256, 600, 0, BitVec.allOnes 256, 7, ⟨governance⟩, 0, rfl⟩

theorem reachable_queuedForever :
    Reachable (executor keccak child this) Constructed queuedForever := by
  have hmay : (executor keccak child this).MayCall [] queueMessage.sender :=
    show queueMessage.sender ≠ this by decide
  have hqueue : queue keccak 1000 actions longestGracePeriod
      = .ok (longestGracePeriod.queued keccak actions 1100) :=
    queue_eq_ok.mpr ⟨wellFormed_actions, by decide, List.nodup_singleton _, fun _ _ => rfl, rfl⟩
  have hentry : (executor keccak child this).entry 1000 queueMessage longestGracePeriod
      = .done (longestGracePeriod.queued keccak actions 1100) () := by
    show Prog.ofExcept (queue keccak 1000 actions longestGracePeriod) = _
    rw [hqueue]
    rfl
  exact .step (.init ⟨100, BitVec.allOnes 256, 0, 200, 7, ⟨governance⟩, 0, rfl⟩)
    (.callReturns hmay hentry)

end Example

/-- **Parameters that the constructor accepts brick the executor.** -/
theorem overflow_reachable :
    (Reachable (executor Example.keccak Example.child Example.this) Constructed
        ⟨⟨1000, Example.longestDelay, []⟩, []⟩ ∧
      queue Example.keccak 1000 Example.actions Example.longestDelay
        = .error .panicOverflow) ∧
    (Reachable (executor Example.keccak Example.child Example.this) Constructed
        Example.queuedForever ∧
      0 < Example.queuedForever.world.state.actionsSetCounter ∧
      getCurrentState 1100 Example.queuedForever.world.state 0 = .error .panicOverflow ∧
      BridgeExecutorBase.cancel Example.keccak 1100 7 0 Example.queuedForever.world.state
        = .error .panicOverflow) := by
  refine ⟨⟨Example.reachable_longestDelay, rfl⟩, Example.reachable_queuedForever, ?_, rfl, rfl⟩
  exact Nat.one_pos

end BridgeExecutor
