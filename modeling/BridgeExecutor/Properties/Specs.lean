import BridgeExecutor.System
import BridgeExecutor.Lib.Flags

/-!
# What each function does

One lemma per function: when it succeeds and what it leaves behind.
Everything that follows cites these and does not unfold the functions again.

* `getCurrentState_eq_iff` — `getCurrentState`, answer by answer
* `queue_eq_ok` — `_queue` claims one flag per action and writes one slot
* `cancel_eq_ok` — `cancel` releases them
* `Writes` — the functions without outgoing calls, one constructor each
* `executeTransaction_eq` — `_executeTransaction` up to its call
-/

namespace BridgeExecutor

open Reentrant BridgeExecutorBase

/-! ## The five arrays -/

/-- The check of `_queue` on the arrays. -/
structure Actions.WellFormed (a : Actions) : Prop where
  nonempty : 0 < a.targets.length
  values : a.values.length = a.targets.length
  signatures : a.signatures.length = a.targets.length
  calldatas : a.calldatas.length = a.targets.length
  withDelegatecalls : a.withDelegatecalls.length = a.targets.length

namespace Actions

/-- The actions in order. -/
def toList (a : Actions) : List Action := (List.range' 0 a.targets.length).filterMap a.action?

theorem action?_eq_some {a : Actions} {i : Nat} {x : Action} :
    a.action? i = some x ↔ a.targets[i]? = some x.target ∧ a.values[i]? = some x.value ∧
      a.signatures[i]? = some x.signature ∧ a.calldatas[i]? = some x.calldata ∧
      a.withDelegatecalls[i]? = some x.withDelegatecall := by
  unfold action?
  constructor
  · intro h
    split at h
    · cases h; simp [*]
    · cases h
  · rintro ⟨h1, h2, h3, h4, h5⟩
    rw [h1, h2, h3, h4, h5]

theorem lt_of_action? {a : Actions} {i : Nat} {x : Action} (h : a.action? i = some x) :
    i < a.targets.length :=
  (List.getElem?_eq_some_iff.mp (action?_eq_some.mp h).1).1

/-- **No index below the number of targets is out of range of the other arrays.** -/
theorem WellFormed.action? {a : Actions} (h : a.WellFormed) {i : Nat}
    (hi : i < a.targets.length) : ∃ x, a.action? i = some x := by
  refine ⟨⟨a.targets.get ⟨i, hi⟩, a.values.get ⟨i, h.values ▸ hi⟩,
    a.signatures.get ⟨i, h.signatures ▸ hi⟩, a.calldatas.get ⟨i, h.calldatas ▸ hi⟩,
    a.withDelegatecalls.get ⟨i, h.withDelegatecalls ▸ hi⟩⟩, ?_⟩
  rw [action?_eq_some]
  simp

theorem mem_toList {a : Actions} {x : Action} : x ∈ a.toList ↔ ∃ i, a.action? i = some x := by
  simp only [toList, List.mem_filterMap, List.mem_range'_1, Nat.zero_le, Nat.zero_add, true_and]
  exact ⟨fun ⟨i, _, h⟩ => ⟨i, h⟩, fun ⟨i, h⟩ => ⟨i, lt_of_action? h, h⟩⟩

theorem filterMap_range'_succ {a : Actions} {i n : Nat} {x : Action}
    (h : a.action? i = some x) :
    (List.range' i (n + 1)).filterMap a.action?
      = x :: (List.range' (i + 1) n).filterMap a.action? := by
  rw [List.range'_succ, List.filterMap_cons_some h]

/-- One more action in front of those from index `i + 1` on. -/
theorem forall_action?_succ {a : Actions} {i n : Nat} {x : Action} (hx : a.action? i = some x) :
    (∀ j, j < n + 1 → ∃ y, a.action? (i + j) = some y) ↔
      ∀ j, j < n → ∃ y, a.action? (i + 1 + j) = some y := by
  constructor
  · intro h j hj
    rw [Nat.add_assoc, Nat.add_comm 1 j]
    exact h (j + 1) (by omega)
  · intro h j hj
    cases j with
    | zero => exact ⟨x, hx⟩
    | succ j =>
      have := h j (by omega)
      rwa [Nat.add_assoc, Nat.add_comm 1 j] at this

/-- An index out of range ends the reading. -/
theorem not_forall_action? {a : Actions} {i n : Nat} (hx : a.action? i = none) :
    ¬ ∀ j, j < n + 1 → ∃ y, a.action? (i + j) = some y := by
  intro h
  obtain ⟨y, hy⟩ := h 0 (Nat.succ_pos n)
  rw [Nat.add_zero, hx] at hy
  cases hy

/-- The actions from index `i` on, read one by one. -/
theorem getElem?_filterMap_range' {a : Actions} : ∀ {n i : Nat},
    (∀ j, j < n → ∃ x, a.action? (i + j) = some x) → ∀ j, j < n →
    ((List.range' i n).filterMap a.action?)[j]? = a.action? (i + j)
  | 0, _, _, _, hj => absurd hj (Nat.not_lt_zero _)
  | n + 1, i, h, j, hj => by
    obtain ⟨x, hx⟩ := h 0 (Nat.succ_pos n)
    rw [Nat.add_zero] at hx
    rw [filterMap_range'_succ hx]
    cases j with
    | zero => rw [List.getElem?_cons_zero, Nat.add_zero, hx]
    | succ j =>
      rw [List.getElem?_cons_succ, getElem?_filterMap_range' (fun k hk => ?_) j (by omega)]
      · rw [Nat.add_right_comm, Nat.add_assoc]
      · have hk' := h (k + 1) (by omega)
        rwa [Nat.add_right_comm, Nat.add_assoc]

theorem length_filterMap_range' {a : Actions} : ∀ {n i : Nat},
    (∀ j, j < n → ∃ x, a.action? (i + j) = some x) →
    ((List.range' i n).filterMap a.action?).length = n
  | 0, _, _ => rfl
  | n + 1, i, h => by
    obtain ⟨x, hx⟩ := h 0 (Nat.succ_pos n)
    rw [Nat.add_zero] at hx
    rw [filterMap_range'_succ hx, List.length_cons, length_filterMap_range' (fun k hk => ?_)]
    have hk' := h (k + 1) (by omega)
    rwa [Nat.add_right_comm, Nat.add_assoc]

theorem WellFormed.length_toList {a : Actions} (h : a.WellFormed) :
    a.toList.length = a.targets.length :=
  length_filterMap_range' fun j hj => by simpa using h.action? hj

theorem WellFormed.getElem?_toList {a : Actions} (h : a.WellFormed) (i : Nat) :
    a.toList[i]? = a.action? i := by
  by_cases hi : i < a.targets.length
  · have := getElem?_filterMap_range' (a := a) (i := 0) (n := a.targets.length)
      (fun j hj => by simpa using h.action? hj) i hi
    rwa [Nat.zero_add] at this
  · rw [List.getElem?_eq_none (by rw [h.length_toList]; omega)]
    cases hx : a.action? i with
    | none => rfl
    | some x => exact absurd (lt_of_action? hx) hi

end Actions

variable {H X Φ : Type}

/-! ## Guards -/

theorem onlyThis_eq_ok {α : Type} {this sender : Address} {body : Except Error α} {x : α} :
    onlyThis this sender body = .ok x ↔ sender = this ∧ body = .ok x := by
  unfold onlyThis
  by_cases h : sender = this <;> simp [h]

theorem onlyGuardian_eq_ok {α : Type} {s : State H X} {sender : Address}
    {body : Except Error α} {x : α} :
    onlyGuardian s sender body = .ok x ↔ sender = s.guardian ∧ body = .ok x := by
  unfold onlyGuardian
  by_cases h : sender = s.guardian <;> simp [h]

theorem nonPayable_eq_ok {α : Type} {msg : Msg} {body : Except Error α} {x : α} :
    nonPayable msg body = .ok x ↔ msg.value = 0 ∧ body = .ok x := by
  unfold nonPayable
  by_cases h : msg.value = 0
  · rw [if_neg (not_not.mpr h)]
    exact ⟨fun hb => ⟨h, hb⟩, fun hb => hb.2⟩
  · rw [if_pos h]
    exact ⟨nofun, fun hb => absurd hb.1 h⟩

theorem validateDelay_eq_ok {s : State H X} {delay : UInt256} :
    validateDelay s delay = .ok () ↔ s.minimumDelay ≤ delay ∧ delay ≤ s.maximumDelay := by
  unfold validateDelay
  by_cases h1 : delay < s.minimumDelay
  · rw [if_pos h1]
    exact ⟨nofun, fun h => absurd h.1 (BitVec.not_le.mpr h1)⟩
  · rw [if_neg h1]
    by_cases h2 : delay > s.maximumDelay
    · rw [if_pos h2]
      exact ⟨nofun, fun h => absurd h.2 (BitVec.not_le.mpr h2)⟩
    · rw [if_neg h2]
      exact ⟨fun _ => ⟨BitVec.not_lt.mp h1, BitVec.not_lt.mp h2⟩, fun _ => rfl⟩

/-- What `getCurrentState` answers, and when. -/
inductive Reports (now : UInt256) (s : State H X) (id : Nat) :
    Except Error ActionsSetState → Prop where
  | invalid : s.actionsSetCounter ≤ id → Reports now s id (.error .invalidActionsSetId)
  | canceled : id < s.actionsSetCounter → (s.actionsSets id).canceled = true →
      Reports now s id (.ok .canceled)
  | executed : id < s.actionsSetCounter → (s.actionsSets id).canceled = false →
      (s.actionsSets id).executed = true → Reports now s id (.ok .executed)
  | overflow : id < s.actionsSetCounter → (s.actionsSets id).Live →
      ¬ (s.actionsSets id).executionTime.toNat + s.gracePeriod.toNat < 2 ^ 256 →
      Reports now s id (.error .panicOverflow)
  | expired : id < s.actionsSetCounter → (s.actionsSets id).Live →
      (s.actionsSets id).executionTime.toNat + s.gracePeriod.toNat < 2 ^ 256 →
      (s.actionsSets id).executionTime.toNat + s.gracePeriod.toNat < now.toNat →
      Reports now s id (.ok .expired)
  | queued : id < s.actionsSetCounter → (s.actionsSets id).Live →
      (s.actionsSets id).executionTime.toNat + s.gracePeriod.toNat < 2 ^ 256 →
      now.toNat ≤ (s.actionsSets id).executionTime.toNat + s.gracePeriod.toNat →
      Reports now s id (.ok .queued)

/-- Past the marks only the grace period is asked for. -/
theorem getCurrentState_of_live {now : UInt256} {s : State H X} {id : Nat}
    (hid : id < s.actionsSetCounter) (hl : (s.actionsSets id).Live) :
    getCurrentState now s id =
      match checkedAdd (s.actionsSets id).executionTime s.gracePeriod with
      | .error e => .error e
      | .ok expiry => if now > expiry then .ok .expired else .ok .queued := by
  have hc : ¬ (s.actionsSets id).canceled = true := by simp [hl.2]
  have he : ¬ (s.actionsSets id).executed = true := by simp [hl.1]
  exact (if_neg (Nat.not_le.mpr hid)).trans ((if_neg hc).trans (if_neg he))

theorem Reports.eq {now : UInt256} {s : State H X} {id : Nat}
    {r : Except Error ActionsSetState} (h : Reports now s id r) : getCurrentState now s id = r := by
  cases h with
  | invalid hid =>
    unfold getCurrentState
    rw [if_pos hid]
  | canceled hid hc =>
    unfold getCurrentState
    rw [if_neg (Nat.not_le.mpr hid), if_pos hc]
  | executed hid hc he =>
    unfold getCurrentState
    rw [if_neg (Nat.not_le.mpr hid), if_neg (by simp [hc]), if_pos he]
  | overflow hid hl hsum => rw [getCurrentState_of_live hid hl, checkedAdd_of_not_lt hsum]
  | expired hid hl hsum hlt =>
    rw [getCurrentState_of_live hid hl, checkedAdd_of_lt hsum]
    refine if_pos ?_
    rw [gt_iff_lt, BitVec.lt_def, toNat_add_of_lt hsum]
    exact hlt
  | queued hid hl hsum hle =>
    rw [getCurrentState_of_live hid hl, checkedAdd_of_lt hsum]
    refine if_neg ?_
    rw [gt_iff_lt, BitVec.lt_def, toNat_add_of_lt hsum]
    omega

/-- The guards of the constructors leave nothing out. -/
theorem getCurrentState_reports (now : UInt256) (s : State H X) (id : Nat) :
    Reports now s id (getCurrentState now s id) := by
  obtain ⟨r, hr⟩ : ∃ r, Reports now s id r := by
    rcases Nat.lt_or_ge id s.actionsSetCounter with hid | hid
    · cases hc : (s.actionsSets id).canceled with
      | true => exact ⟨_, .canceled hid hc⟩
      | false =>
        cases he : (s.actionsSets id).executed with
        | true => exact ⟨_, .executed hid hc he⟩
        | false =>
          by_cases hsum : (s.actionsSets id).executionTime.toNat + s.gracePeriod.toNat < 2 ^ 256
          · rcases Nat.lt_or_ge ((s.actionsSets id).executionTime.toNat + s.gracePeriod.toNat)
              now.toNat with hnow | hnow
            · exact ⟨_, .expired hid ⟨he, hc⟩ hsum hnow⟩
            · exact ⟨_, .queued hid ⟨he, hc⟩ hsum hnow⟩
          · exact ⟨_, .overflow hid ⟨he, hc⟩ hsum⟩
    · exact ⟨_, .invalid hid⟩
  rw [hr.eq]
  exact hr

/-- `getCurrentState` answers `r` exactly if `r` is what it reports. -/
theorem getCurrentState_eq_iff {now : UInt256} {s : State H X} {id : Nat}
    {r : Except Error ActionsSetState} : getCurrentState now s id = r ↔ Reports now s id r := by
  constructor
  · rintro rfl
    exact getCurrentState_reports now s id
  · exact Reports.eq

theorem getCurrentState_eq_queued {now : UInt256} {s : State H X} {id : Nat} :
    getCurrentState now s id = .ok .queued ↔ id < s.actionsSetCounter ∧
      (s.actionsSets id).Live ∧
      (s.actionsSets id).executionTime.toNat + s.gracePeriod.toNat < 2 ^ 256 ∧
      now.toNat ≤ (s.actionsSets id).executionTime.toNat + s.gracePeriod.toNat := by
  rw [getCurrentState_eq_iff]
  constructor
  · rintro ⟨⟩
    exact ⟨‹_›, ‹_›, ‹_›, ‹_›⟩
  · rintro ⟨hid, hl, hsum, hle⟩
    exact .queued hid hl hsum hle

theorem getCurrentState_eq_expired {now : UInt256} {s : State H X} {id : Nat} :
    getCurrentState now s id = .ok .expired ↔ id < s.actionsSetCounter ∧
      (s.actionsSets id).Live ∧
      (s.actionsSets id).executionTime.toNat + s.gracePeriod.toNat < 2 ^ 256 ∧
      (s.actionsSets id).executionTime.toNat + s.gracePeriod.toNat < now.toNat := by
  rw [getCurrentState_eq_iff]
  constructor
  · rintro ⟨⟩
    exact ⟨‹_›, ‹_›, ‹_›, ‹_›⟩
  · rintro ⟨hid, hl, hsum, hlt⟩
    exact .expired hid hl hsum hlt

theorem getCurrentState_eq_executed {now : UInt256} {s : State H X} {id : Nat} :
    getCurrentState now s id = .ok .executed ↔ id < s.actionsSetCounter ∧
      (s.actionsSets id).canceled = false ∧ (s.actionsSets id).executed = true := by
  rw [getCurrentState_eq_iff]
  constructor
  · rintro ⟨⟩
    exact ⟨‹_›, ‹_›, ‹_›⟩
  · rintro ⟨hid, hc, he⟩
    exact .executed hid hc he

theorem getCurrentState_eq_canceled {now : UInt256} {s : State H X} {id : Nat} :
    getCurrentState now s id = .ok .canceled ↔ id < s.actionsSetCounter ∧
      (s.actionsSets id).canceled = true := by
  rw [getCurrentState_eq_iff]
  constructor
  · rintro ⟨⟩
    exact ⟨‹_›, ‹_›⟩
  · rintro ⟨hid, hc⟩
    exact .canceled hid hc

/-- The state of a set depends on its slot, the grace period and on being stored. -/
theorem getCurrentState_congr {now : UInt256} {s s' : State H X} {id : Nat}
    (hc : s'.actionsSetCounter ≤ id ↔ s.actionsSetCounter ≤ id)
    (hg : s'.gracePeriod = s.gracePeriod)
    (hs : s'.actionsSets id = s.actionsSets id) :
    getCurrentState now s' id = getCurrentState now s id := by
  unfold getCurrentState
  simp only [hc, hg, hs]

theorem requireQueued_eq_ok {now : UInt256} {s : State H X} {id : Nat} :
    requireQueued now s id = .ok () ↔ getCurrentState now s id = .ok .queued := by
  unfold requireQueued
  split <;> simp_all

/-- The two guards of `execute`. -/
theorem requireExecutable_eq_ok {now : UInt256} {s : State H X} {id : Nat} :
    requireExecutable now s id = .ok () ↔ getCurrentState now s id = .ok .queued ∧
      (s.actionsSets id).executionTime ≤ now := by
  unfold requireExecutable
  rw [← requireQueued_eq_ok]
  cases hq : requireQueued now s id with
  | error e => simp
  | ok u =>
    by_cases hlt : now < (s.actionsSets id).executionTime
    · simp [hlt]
    · simp [hlt, BitVec.not_lt.mp hlt]

/-! ## The update functions -/

theorem updateGuardian_eq_ok {this sender guardian : Address} {s s' : State H X} :
    updateGuardian this sender guardian s = .ok s' ↔
      sender = this ∧ s' = s.updateGuardian guardian := by
  rw [updateGuardian, onlyThis_eq_ok, Except.ok.injEq, eq_comm (a := s')]

theorem updateDelay_eq_ok {this sender : Address} {delay : UInt256} {s s' : State H X} :
    updateDelay this sender delay s = .ok s' ↔ sender = this ∧
      (s.minimumDelay ≤ delay ∧ delay ≤ s.maximumDelay) ∧ s' = s.updateDelay delay := by
  rw [updateDelay, onlyThis_eq_ok, ← validateDelay_eq_ok]
  cases hv : validateDelay s delay with
  | error e => simp
  | ok u => simp [eq_comm]

theorem updateGracePeriod_eq_ok {this sender : Address} {gracePeriod : UInt256}
    {s s' : State H X} :
    updateGracePeriod this sender gracePeriod s = .ok s' ↔ sender = this ∧
      minimumGracePeriod ≤ gracePeriod ∧ s' = s.updateGracePeriod gracePeriod := by
  rw [updateGracePeriod, onlyThis_eq_ok]
  by_cases h : gracePeriod < minimumGracePeriod
  · rw [if_pos h]
    exact ⟨fun hb => (nomatch hb.2), fun hb => absurd hb.2.1 (BitVec.not_le.mpr h)⟩
  · simp [h, BitVec.not_lt.mp h, eq_comm]

/-- Write first, validate afterwards: what counts is the delay in force and the new bound. -/
theorem updateMinimumDelay_eq_ok {this sender : Address} {minimumDelay : UInt256}
    {s s' : State H X} :
    updateMinimumDelay this sender minimumDelay s = .ok s' ↔ sender = this ∧
      minimumDelay < s.maximumDelay ∧ (minimumDelay ≤ s.delay ∧ s.delay ≤ s.maximumDelay) ∧
      s' = s.updateMinimumDelay minimumDelay := by
  have hval : validateDelay (s.updateMinimumDelay minimumDelay) s.delay = .ok () ↔
      minimumDelay ≤ s.delay ∧ s.delay ≤ s.maximumDelay := validateDelay_eq_ok
  rw [updateMinimumDelay, onlyThis_eq_ok, ← hval]
  by_cases h : minimumDelay ≥ s.maximumDelay
  · simp [h, BitVec.not_lt.mpr h]
  · rw [if_neg h]
    cases hv : validateDelay (s.updateMinimumDelay minimumDelay) s.delay with
    | error e => simp
    | ok u => simp [BitVec.not_le.mp h, eq_comm]

theorem updateMaximumDelay_eq_ok {this sender : Address} {maximumDelay : UInt256}
    {s s' : State H X} :
    updateMaximumDelay this sender maximumDelay s = .ok s' ↔ sender = this ∧
      s.minimumDelay < maximumDelay ∧ (s.minimumDelay ≤ s.delay ∧ s.delay ≤ maximumDelay) ∧
      s' = s.updateMaximumDelay maximumDelay := by
  have hval : validateDelay (s.updateMaximumDelay maximumDelay) s.delay = .ok () ↔
      s.minimumDelay ≤ s.delay ∧ s.delay ≤ maximumDelay := validateDelay_eq_ok
  rw [updateMaximumDelay, onlyThis_eq_ok, ← hval]
  by_cases h : maximumDelay ≤ s.minimumDelay
  · simp [h, BitVec.not_lt.mpr h]
  · rw [if_neg h]
    cases hv : validateDelay (s.updateMaximumDelay maximumDelay) s.delay with
    | error e => simp
    | ok u => simp [BitVec.not_le.mp h, eq_comm]

/-! ## `executeDelegateCall` -/

theorem executeDelegateCall_self (this : Address) (value : UInt256) (target : Address)
    (data : List UInt8) (s : State H X) :
    executeDelegateCall this this value target data s =
      .call s ⟨true, target, value, data⟩ fun s' success resultData =>
        .done s' (success, resultData) := if_neg (not_not.mpr rfl)

/-! ## `_queue` and `cancel` -/

/-- The keys of the actions `a` in `_queuedActions`, in order. -/
def Keccak.hashes (K : Keccak H) (a : Actions) (executionTime : UInt256) : List H :=
  a.toList.map (K.actionHash · executionTime)

section

variable [DecidableEq H] {K : Keccak H}

/-- The state after a successful `_queue`. -/
def State.queued (K : Keccak H) (s : State H X) (a : Actions) (executionTime : UInt256) :
    State H X :=
  ({ (s.setFlags (Flags.taken (K.hashes a executionTime) s.queuedActions)) with
      actionsSetCounter := s.actionsSetCounter + 1 }
    |>.setActionsSet s.actionsSetCounter
      { s.actionsSets s.actionsSetCounter with toActions := a, executionTime }).emit
    (.actionsSetQueued s.actionsSetCounter a executionTime)

@[simp] theorem State.queued_delay (s : State H X) (a : Actions) (t : UInt256) :
    (s.queued K a t).delay = s.delay := rfl
@[simp] theorem State.queued_actionsSetCounter (s : State H X) (a : Actions) (t : UInt256) :
    (s.queued K a t).actionsSetCounter = s.actionsSetCounter + 1 := rfl
@[simp] theorem State.queued_queuedActions (s : State H X) (a : Actions) (t : UInt256) :
    (s.queued K a t).queuedActions = Flags.taken (K.hashes a t) s.queuedActions := rfl

/-- `_queue` writes one slot. -/
theorem State.queued_actionsSets_of_ne {s : State H X} {id : Nat}
    (hid : id ≠ s.actionsSetCounter) (a : Actions) (t : UInt256) :
    (s.queued K a t).actionsSets id = s.actionsSets id := Function.update_of_ne hid _ _

/-- `_queue` on a slot that was never used. -/
theorem State.queued_actionsSets {s : State H X}
    (hfree : s.actionsSets s.actionsSetCounter = {}) (a : Actions) (t : UInt256) :
    (s.queued K a t).actionsSets
      = Function.update s.actionsSets s.actionsSetCounter ⟨a, t, false, false⟩ := by
  show Function.update s.actionsSets s.actionsSetCounter _ = _
  rw [hfree]

theorem State.queued_actionsSets_self {s : State H X}
    (hfree : s.actionsSets s.actionsSetCounter = {}) (a : Actions) (t : UInt256) :
    (s.queued K a t).actionsSets s.actionsSetCounter = ⟨a, t, false, false⟩ := by
  rw [State.queued_actionsSets hfree, Function.update_self]

/-- The state after a successful `cancel`. -/
def State.cancel (K : Keccak H) (s : State H X) (id : Nat) : State H X :=
  ((s.setActionsSet id { s.actionsSets id with canceled := true }).setFlags
    (Flags.release (K.hashes (s.actionsSets id).toActions (s.actionsSets id).executionTime)
      s.queuedActions)).emit (.actionsSetCanceled id)

theorem queueLoop_eq_ok {a : Actions} {t : UInt256} : ∀ {n i : Nat} {f g : H → Bool},
    queueLoop K a t n i f = .ok g ↔ (∀ j, j < n → ∃ x, a.action? (i + j) = some x) ∧
      Flags.claim (((List.range' i n).filterMap a.action?).map (K.actionHash · t)) f = some g
  | 0, i, f, g => by simp [queueLoop, Flags.claim]
  | n + 1, i, f, g => by
    rw [queueLoop]
    cases hx : a.action? i with
    | none =>
      constructor
      · rintro ⟨⟩
      · rintro ⟨h, -⟩
        exact absurd h (Actions.not_forall_action? hx)
    | some x =>
      rw [Actions.forall_action?_succ hx, Actions.filterMap_range'_succ hx, List.map_cons,
        Flags.claim]
      by_cases hf : f (K.actionHash x t) = true
      · simp [hf]
      · simp only [hf, if_false, Bool.false_eq_true]
        exact queueLoop_eq_ok

theorem cancelLoop_eq_ok {a : ActionsSet} : ∀ {n i : Nat} {f g : H → Bool},
    cancelLoop K a n i f = .ok g ↔ (∀ j, j < n → ∃ x, a.action? (i + j) = some x) ∧
      g = Flags.release
        (((List.range' i n).filterMap a.action?).map (K.actionHash · a.executionTime)) f
  | 0, i, f, g => by simp [cancelLoop, Flags.release, eq_comm]
  | n + 1, i, f, g => by
    rw [cancelLoop]
    cases hx : a.action? i with
    | none =>
      constructor
      · rintro ⟨⟩
      · rintro ⟨h, -⟩
        exact absurd h (Actions.not_forall_action? hx)
    | some x =>
      rw [Actions.forall_action?_succ hx, Actions.filterMap_range'_succ hx, List.map_cons,
        Flags.release]
      exact cancelLoop_eq_ok

/-- **When `_queue` succeeds, and what it writes.** -/
theorem queue_eq_ok {now : UInt256} {a : Actions} {s s' : State H X} :
    queue K now a s = .ok s' ↔ a.WellFormed ∧ now.toNat + s.delay.toNat < 2 ^ 256 ∧
      (K.hashes a (now + s.delay)).Nodup ∧
      (∀ h ∈ K.hashes a (now + s.delay), s.queuedActions h = false) ∧
      s' = s.queued K a (now + s.delay) := by
  unfold queue
  by_cases hempty : a.targets.length = 0
  · rw [if_pos hempty]
    exact ⟨nofun, fun h => absurd h.1.nonempty (by omega)⟩
  rw [if_neg hempty]
  by_cases hlen : a.targets.length ≠ a.values.length ∨ a.targets.length ≠ a.signatures.length ∨
      a.targets.length ≠ a.calldatas.length ∨ a.targets.length ≠ a.withDelegatecalls.length
  · rw [if_pos hlen]
    refine ⟨nofun, fun h => ?_⟩
    have h1 := h.1.values
    have h2 := h.1.signatures
    have h3 := h.1.calldatas
    have h4 := h.1.withDelegatecalls
    omega
  rw [if_neg hlen]
  have hwf : a.WellFormed := ⟨by omega, by omega, by omega, by omega, by omega⟩
  by_cases hsum : now.toNat + s.delay.toNat < 2 ^ 256
  · rw [checkedAdd_of_lt hsum]
    have hloop : ∀ g, queueLoop K a (now + s.delay) a.targets.length 0 s.queuedActions = .ok g ↔
        (K.hashes a (now + s.delay)).Nodup ∧
        (∀ h ∈ K.hashes a (now + s.delay), s.queuedActions h = false) ∧
        g = Flags.taken (K.hashes a (now + s.delay)) s.queuedActions := by
      intro g
      rw [queueLoop_eq_ok, Flags.claim_eq_some]
      exact ⟨fun h => h.2, fun h => ⟨fun j hj => by simpa using hwf.action? hj, h⟩⟩
    dsimp only
    cases hl : queueLoop K a (now + s.delay) a.targets.length 0 s.queuedActions with
    | error e =>
      refine ⟨nofun, fun h => ?_⟩
      rw [(hloop _).mpr ⟨h.2.2.1, h.2.2.2.1, rfl⟩] at hl
      cases hl
    | ok g =>
      obtain ⟨hnd, hfree, rfl⟩ := (hloop g).mp hl
      exact ⟨fun h => ⟨hwf, hsum, hnd, hfree, (Except.ok.inj h).symm⟩,
        fun h => congrArg Except.ok h.2.2.2.2.symm⟩
  · rw [checkedAdd_of_not_lt hsum]
    exact ⟨nofun, fun h => absurd h.2.1 hsum⟩

/-- Only the flags make `_queue` complain about a duplicate. -/
theorem queue_eq_duplicateAction {now : UInt256} {a : Actions} {s : State H X}
    (h : queue K now a s = .error .duplicateAction) :
    a.WellFormed ∧ now.toNat + s.delay.toNat < 2 ^ 256 ∧
      ((K.hashes a (now + s.delay)).Nodup →
        ∃ x ∈ K.hashes a (now + s.delay), s.queuedActions x = true) := by
  have hnot : ∀ s', queue K now a s ≠ .ok s' := fun s' hok => nomatch h.symm.trans hok
  unfold queue at h
  split at h
  · cases h
  next hempty =>
  split at h
  · cases h
  next hlen =>
  have hwf : a.WellFormed := ⟨by omega, by omega, by omega, by omega, by omega⟩
  by_cases hsum : now.toNat + s.delay.toNat < 2 ^ 256
  · refine ⟨hwf, hsum, fun hnd => ?_⟩
    by_contra hnone
    refine hnot _ (queue_eq_ok.mpr ⟨hwf, hsum, hnd, fun x hx => ?_, rfl⟩)
    exact Bool.eq_false_iff.mpr fun hset => hnone ⟨x, hx, hset⟩
  · rw [checkedAdd_of_not_lt hsum] at h
    cases h

/-- **When `cancel` succeeds, and what it writes.** -/
theorem cancel_eq_ok {now : UInt256} {sender : Address} {id : Nat} {s s' : State H X} :
    cancel K now sender id s = .ok s' ↔ sender = s.guardian ∧
      getCurrentState now s id = .ok .queued ∧
      (∀ j, j < (s.actionsSets id).targets.length →
        ∃ x, (s.actionsSets id).action? j = some x) ∧
      s' = s.cancel K id := by
  rw [BridgeExecutorBase.cancel, onlyGuardian_eq_ok, ← requireQueued_eq_ok]
  cases hq : requireQueued now s id with
  | error e => simp
  | ok u =>
    have hloop := @cancelLoop_eq_ok H _ K { s.actionsSets id with canceled := true }
      (s.actionsSets id).targets.length 0 s.queuedActions
    simp only [Nat.zero_add] at hloop
    cases hl : cancelLoop K { s.actionsSets id with canceled := true }
        (s.actionsSets id).targets.length 0 s.queuedActions with
    | error e =>
      simp only [hl, reduceCtorEq, and_false, false_iff, not_and]
      intro _ _ hall
      have := hloop.mpr ⟨hall, rfl⟩
      rw [hl] at this
      cases this
    | ok g =>
      obtain ⟨hall, rfl⟩ := hloop.mp hl
      simp only [hl]
      exact ⟨fun h => ⟨h.1, trivial, hall, (Except.ok.inj h.2).symm⟩,
        fun h => ⟨h.1, congrArg Except.ok h.2.2.2.symm⟩⟩

/-! ## `_executeTransaction` and the loop of `execute` -/

/-- The call that `_executeTransaction` issues for an action. -/
def Keccak.outCall (K : Keccak H) (a : Action) : OutCall where
  delegate := a.withDelegatecall
  target := a.target
  value := a.value
  callData := callDataOf K a.signature a.calldata

/-- The state in which `_executeTransaction` issues it: the flag of the action is down. -/
def State.cleared (K : Keccak H) (s : State H X) (a : Action) (executionTime : UInt256) :
    State H X :=
  s.setFlags (Function.update s.queuedActions (K.actionHash a executionTime) false)

/-- A self call to `executeDelegateCall` and a direct call differ in the call they issue only. -/
theorem executeTransaction_eq (this : Address) (a : Action) (t : UInt256) (s : State H X) :
    executeTransaction K this a t s =
      if s.balance < a.value.toNat then .fail .insufficientBalance
      else .call (s.cleared K a t) (K.outCall a) fun s' success resultData =>
        match verifyCallResult success resultData with
        | .error e => .fail e
        | .ok data => .done s' data := by
  unfold executeTransaction
  split
  · rfl
  · obtain ⟨target, value, signature, calldata, withDelegatecall⟩ := a
    cases withDelegatecall with
    | true =>
      show (executeDelegateCall this this value target _ _).bind _ = _
      rw [executeDelegateCall_self]
      rfl
    | false => rfl

/-- What the loop does with the answer to its call number `i`, with `n` actions to go. -/
def afterCall (K : Keccak H) (this sender : Address) (id n i : Nat) (rd : List (List UInt8))
    (s : State H X) (success : Bool) (resultData : List UInt8) : Program H X Unit :=
  match verifyCallResult success resultData with
  | .error e => .fail e
  | .ok data => executeLoop K this sender id n (i + 1) (rd ++ [data]) s

/-- One iteration of the loop. -/
theorem executeLoop_succ {this sender : Address} {id n i : Nat} {rd : List (List UInt8)}
    {s : State H X} {a : Action} (ha : (s.actionsSets id).action? i = some a) :
    executeLoop K this sender id (n + 1) i rd s =
      if s.balance < a.value.toNat then .fail .insufficientBalance
      else .call (s.cleared K a (s.actionsSets id).executionTime) (K.outCall a)
        (afterCall K this sender id n i rd) := by
  rw [executeLoop]
  simp only [ha]
  rw [executeTransaction_eq]
  split
  · rfl
  · rw [Prog.bind_call]
    congr 1
    funext s' success resultData
    unfold afterCall
    cases verifyCallResult success resultData <;> rfl

/-! ## Messages -/

section

variable {child : Child X Φ} {this : Address}

/-- A message to a function that makes no outgoing call. -/
theorem external_plain {now : UInt256} {m : Message Φ} {s : State H X}
    {r : Except Error (State H X)} (h : plain K child this now m.toMsg s m.fn = some r) :
    external K child this now m s = .ofExcept r := by
  unfold external
  cases hf : m.fn with
  | execute id => rw [hf] at h; cases h
  | executeDelegateCall target data => rw [hf] at h; cases h
  | _ => rw [hf] at h; simp only [h]

theorem external_execute {now : UInt256} {m : Message Φ} {s : State H X} {id : Nat}
    (h : m.fn = .execute id) :
    external K child this now m s =
      execute K this now m.sender id (s.receive this m.toMsg) := by
  unfold external
  rw [h]

theorem external_executeDelegateCall {now : UInt256} {m : Message Φ} {s : State H X}
    {target : Address} {data : List UInt8} (h : m.fn = .executeDelegateCall target data) :
    external K child this now m s =
      if m.sender ≠ this then .fail .onlyCallableByThis
      else .call s ⟨true, target, m.value, data⟩ fun s' _ _ => .done s' () := by
  unfold external
  rw [h]
  by_cases hs : m.sender = this
  · simp [executeDelegateCall_self, State.receive, hs]
  · simp [executeDelegateCall, hs]

/--
What the functions without outgoing calls write.

One constructor per function, with everything the function has checked.
-/
inductive Writes (K : Keccak H) (child : Child X Φ) (this : Address) (now : UInt256) (msg : Msg)
    (s : State H X) : Fn Φ → State H X → Prop where
  | cancel {id} : msg.sender = s.guardian → getCurrentState now s id = .ok .queued →
      Writes K child this now msg s (.cancel id) (s.cancel K id)
  | updateGuardian {guardian} : msg.sender = this →
      Writes K child this now msg s (.updateGuardian guardian) (s.updateGuardian guardian)
  | updateDelay {delay} : msg.sender = this → s.minimumDelay ≤ delay ∧ delay ≤ s.maximumDelay →
      Writes K child this now msg s (.updateDelay delay) (s.updateDelay delay)
  | updateGracePeriod {gracePeriod} : msg.sender = this → minimumGracePeriod ≤ gracePeriod →
      Writes K child this now msg s (.updateGracePeriod gracePeriod)
        (s.updateGracePeriod gracePeriod)
  | updateMinimumDelay {minimumDelay} : msg.sender = this → minimumDelay < s.maximumDelay →
      minimumDelay ≤ s.delay ∧ s.delay ≤ s.maximumDelay →
      Writes K child this now msg s (.updateMinimumDelay minimumDelay)
        (s.updateMinimumDelay minimumDelay)
  | updateMaximumDelay {maximumDelay} : msg.sender = this → s.minimumDelay < maximumDelay →
      s.minimumDelay ≤ s.delay ∧ s.delay ≤ maximumDelay →
      Writes K child this now msg s (.updateMaximumDelay maximumDelay)
        (s.updateMaximumDelay maximumDelay)
  | receiveFunds : Writes K child this now msg s .receiveFunds (s.receive this msg)
  | queue {f a} : child.handle this msg s.own f = .ok (.queue a) → a.WellFormed →
      now.toNat + s.delay.toNat < 2 ^ 256 → (K.hashes a (now + s.delay)).Nodup →
      (∀ h ∈ K.hashes a (now + s.delay), s.queuedActions h = false) →
      Writes K child this now msg s (.own f) (s.queued K a (now + s.delay))
  | write {f own event} : child.handle this msg s.own f = .ok (.write own event) →
      Writes K child this now msg s (.own f) { s.emit event with own }

theorem Writes.of_plain {now : UInt256} {msg : Msg} {s s' : State H X} {f : Fn Φ}
    (h : plain K child this now msg s f = some (.ok s')) :
    Writes K child this now msg s f s' := by
  cases f with
  | execute id => cases h
  | executeDelegateCall target data => cases h
  | cancel id =>
    obtain ⟨-, h⟩ := nonPayable_eq_ok.mp (Option.some.inj h)
    obtain ⟨h1, h2, -, rfl⟩ := cancel_eq_ok.mp h
    exact .cancel h1 h2
  | updateGuardian guardian =>
    obtain ⟨-, h⟩ := nonPayable_eq_ok.mp (Option.some.inj h)
    obtain ⟨h1, rfl⟩ := updateGuardian_eq_ok.mp h
    exact .updateGuardian h1
  | updateDelay delay =>
    obtain ⟨-, h⟩ := nonPayable_eq_ok.mp (Option.some.inj h)
    obtain ⟨h1, h2, rfl⟩ := updateDelay_eq_ok.mp h
    exact .updateDelay h1 h2
  | updateGracePeriod gracePeriod =>
    obtain ⟨-, h⟩ := nonPayable_eq_ok.mp (Option.some.inj h)
    obtain ⟨h1, h2, rfl⟩ := updateGracePeriod_eq_ok.mp h
    exact .updateGracePeriod h1 h2
  | updateMinimumDelay minimumDelay =>
    obtain ⟨-, h⟩ := nonPayable_eq_ok.mp (Option.some.inj h)
    obtain ⟨h1, h2, h3, rfl⟩ := updateMinimumDelay_eq_ok.mp h
    exact .updateMinimumDelay h1 h2 h3
  | updateMaximumDelay maximumDelay =>
    obtain ⟨-, h⟩ := nonPayable_eq_ok.mp (Option.some.inj h)
    obtain ⟨h1, h2, h3, rfl⟩ := updateMaximumDelay_eq_ok.mp h
    exact .updateMaximumDelay h1 h2 h3
  | receiveFunds =>
    cases h
    exact .receiveFunds
  | own f =>
    obtain ⟨-, h⟩ := nonPayable_eq_ok.mp (Option.some.inj h)
    unfold own at h
    split at h
    · cases h
    · next a ha =>
      obtain ⟨h1, h2, h3, h4, rfl⟩ := queue_eq_ok.mp h
      exact .queue ha h1 h2 h3 h4
    · next hw =>
      cases h
      exact .write hw

end

end

end BridgeExecutor
