import BridgeExecutor.Properties.Refinement

/-!
# A running `execute`

While a call of `execute` is out, its frame holds what the loop will do with the answer.
`Dispatching` says what that is: the calls issued so far are those of the first actions of the
set, they all succeeded, and the loop goes on with the next action.

* `executeLoop_eq_call` — when the loop issues a call, which one, and how it goes on
* `dispatching_of_reachable` — every waiting frame of `execute` is `Dispatching`
* `execute_answer_ne_panicIndex`, `execute_ne_panicIndex` — no index is out of range
-/

namespace BridgeExecutor

open Reentrant BridgeExecutorBase

variable {H X Φ : Type}

abbrev ExecFrame (H X Φ : Type) :=
  Frame UInt256 (Message Φ) (State H X) OutCall (List UInt8) Error

/-! ## Guards and answers -/

/-- A call result passes exactly if the call succeeded. -/
theorem verifyCallResult_eq_ok {success : Bool} {returnData data : List UInt8} :
    verifyCallResult success returnData = .ok data ↔ success = true ∧ data = returnData := by
  unfold verifyCallResult
  cases success with
  | true => simp [eq_comm]
  | false =>
    by_cases h : returnData.length > 0
    · simp [h]
    · simp [h]

theorem verifyCallResult_ne_panic {success : Bool} {returnData : List UInt8} :
    verifyCallResult success returnData ≠ .error .panicIndex ∧
      verifyCallResult success returnData ≠ .error .panicOverflow := by
  unfold verifyCallResult
  cases success with
  | true => simp
  | false =>
    by_cases h : returnData.length > 0
    · simp [h]
    · simp [h]

theorem getCurrentState_ne_panicIndex {now : UInt256} {s : State H X} {id : Nat} :
    getCurrentState now s id ≠ .error .panicIndex := by
  rw [Ne, getCurrentState_eq_iff]
  rintro ⟨⟩

theorem requireQueued_ne_panicIndex {now : UInt256} {s : State H X} {id : Nat} :
    requireQueued now s id ≠ .error .panicIndex := by
  unfold requireQueued
  split
  · next e he =>
    rintro ⟨⟩
    exact getCurrentState_ne_panicIndex he
  · nofun
  · nofun

theorem requireExecutable_ne_panicIndex {now : UInt256} {s : State H X} {id : Nat} :
    requireExecutable now s id ≠ .error .panicIndex := by
  unfold requireExecutable
  split
  · next e he =>
    rintro ⟨⟩
    exact requireQueued_ne_panicIndex he
  · split <;> nofun

section

variable [DecidableEq H] {K : Keccak H} {child : Child X Φ} {this : Address}

/-! ## The loop from one call to the next -/

/-- The loop issues a call: it is the one of the action it is at, and the balance covers it. -/
theorem executeLoop_eq_call {sender : Address} {id n i : Nat} {rd : List (List UInt8)}
    {s s' : State H X} {q : OutCall} {k : State H X → Bool → List UInt8 → Program H X Unit}
    (h : executeLoop K this sender id n i rd s = .call s' q k) :
    ∃ n' a, n = n' + 1 ∧ (s.actionsSets id).action? i = some a ∧
      a.value.toNat ≤ s.balance ∧ s' = s.cleared K a (s.actionsSets id).executionTime ∧
      q = K.outCall a ∧ k = afterCall K this sender id n' i rd := by
  cases n with
  | zero => cases h
  | succ n =>
    cases ha : (s.actionsSets id).action? i with
    | none =>
      rw [executeLoop] at h
      simp [ha] at h
    | some a =>
      rw [executeLoop_succ ha] at h
      split at h
      · cases h
      · next hb =>
        cases h
        exact ⟨n, a, rfl, rfl, Nat.le_of_not_lt hb, rfl, rfl, rfl⟩

/-- The loop returns only when no action is left. -/
theorem executeLoop_eq_done {sender : Address} {id n i : Nat} {rd : List (List UInt8)}
    {s s' : State H X} (h : executeLoop K this sender id n i rd s = .done s' ()) :
    n = 0 ∧ s' = s.emit (.actionsSetExecuted id sender rd) := by
  cases n with
  | zero => cases h; exact ⟨rfl, rfl⟩
  | succ n =>
    cases ha : (s.actionsSets id).action? i with
    | none =>
      rw [executeLoop] at h
      simp [ha] at h
    | some a =>
      rw [executeLoop_succ ha] at h
      split at h <;> cases h

/-- The loop itself reverts only for lack of funds, if the arrays are long enough. -/
theorem executeLoop_eq_fail {sender : Address} {id n i : Nat} {rd : List (List UInt8)}
    {s : State H X} {e : Error} (hwf : (s.actionsSets id).toActions.WellFormed)
    (hi : i + n ≤ (s.actionsSets id).targets.length)
    (h : executeLoop K this sender id n i rd s = .fail e) :
    e = .insufficientBalance ∧
      ∃ a, (s.actionsSets id).action? i = some a ∧ s.balance < a.value.toNat := by
  cases n with
  | zero => cases h
  | succ n =>
    obtain ⟨a, ha⟩ := hwf.action? (i := i) (by omega)
    rw [executeLoop_succ ha] at h
    split at h
    · next hb =>
      cases h
      exact ⟨rfl, a, ha, hb⟩
    · cases h

/-! ## The frame of a running `execute` -/

/-- `f` is a frame of `execute(id)` that waits for the answer to `f.pending`. -/
structure Dispatching (K : Keccak H) (this : Address) (id : Nat) (f : ExecFrame H X Φ) :
    Prop where
  guard : requireExecutable f.entry.now f.entry.state id = .ok ()
  wellFormed : (f.entry.state.actionsSets id).toActions.WellFormed
  evolves : f.entry.state.Evolves f.before.state
  calls : f.issued.map (·.call) ++ [f.pending]
    = ((f.entry.state.actionsSets id).toList.take (f.issued.length + 1)).map K.outCall
  succeeded : ∀ x ∈ f.issued, x.success = true
  rest : ∃ n, f.issued.length + 1 + n = (f.entry.state.actionsSets id).targets.length ∧
    f.k = afterCall K this f.msg.sender id n f.issued.length (f.issued.map (·.data))

namespace Dispatching

variable {f : ExecFrame H X Φ} {id : Nat}

theorem stored (h : Dispatching K this id f) : id < f.entry.state.actionsSetCounter :=
  (getCurrentState_eq_queued.mp (requireExecutable_eq_ok.mp h.guard).1).1

/-- In any world that a callee leaves behind the arrays are those the frame started with. -/
theorem actions_eq (h : Dispatching K this id f) {w : ExecWorld H X Φ}
    (hw : f.before.state.Evolves w.state) :
    (w.state.actionsSets id).toActions = (f.entry.state.actionsSets id).toActions := by
  have hlt : id < f.before.state.actionsSetCounter :=
    Nat.lt_of_lt_of_le h.stored h.evolves.counter
  rw [hw.actions id hlt, h.evolves.actions id h.stored]

/-- One more good answer. -/
theorem all_succeeded (h : Dispatching K this id f) (d : List UInt8) :
    ∀ x ∈ f.issued ++ [(⟨f.pending, true, d⟩ : Exchange OutCall (List UInt8))],
      x.success = true := by
  intro x hx
  rcases List.mem_append.mp hx with hx | hx
  · exact h.succeeded x hx
  · rw [List.mem_singleton.mp hx]

/-- The answer to the pending call has been good, and the next call is out. -/
theorem next (h : Dispatching K this id f) {w : ExecWorld H X Φ}
    (hw : f.before.state.Evolves w.state) {ok : Bool} {d : List UInt8} {s : State H X}
    {q : OutCall} {k : State H X → Bool → List UInt8 → Program H X Unit}
    (hk : f.k w.state ok d = .call s q k) :
    Dispatching K this id (f.next ok d (w.withState s) q k) := by
  obtain ⟨n, hn, hcont⟩ := h.rest
  rw [hcont, afterCall] at hk
  split at hk
  · cases hk
  next data hv =>
  obtain ⟨rfl, rfl⟩ := verifyCallResult_eq_ok.mp hv
  obtain ⟨n', a, rfl, ha, -, rfl, rfl, rfl⟩ := executeLoop_eq_call hk
  have hlen (x : Exchange OutCall (List UInt8)) :
      (f.issued ++ [x]).length = f.issued.length + 1 := by simp
  refine ⟨h.guard, h.wellFormed, ?_, ?_, h.all_succeeded _, n', ?_, ?_⟩
  · exact (h.evolves.trans hw).trans (.of_eq rfl rfl)
  · -- one more call, that of the next action
    have hget : (f.entry.state.actionsSets id).toList[f.issued.length + 1]? = some a := by
      rw [h.wellFormed.getElem?_toList, ← h.actions_eq hw]
      exact ha
    show (f.issued ++ [_]).map Exchange.call ++ [K.outCall a]
      = (List.take ((f.issued ++ [_]).length + 1)
          (f.entry.state.actionsSets id).toList).map K.outCall
    rw [hlen, List.take_add_one, hget, List.map_append, List.map_append, ← h.calls]
    rfl
  · show (f.issued ++ [_]).length + 1 + n' = (f.entry.state.actionsSets id).targets.length
    rw [hlen]
    omega
  · show _ = afterCall K this f.msg.sender id n' (f.issued ++ [_]).length _
    rw [hlen]
    simp [Frame.next]

end Dispatching

/-- The frame of `execute` when its first call goes out. -/
theorem dispatching_of_call {w : ExecWorld H X Φ} {ctx : List (ExecOpen H X Φ)} {m : Message Φ}
    {id : Nat} {s : State H X} {q : OutCall}
    {k : State H X → Bool → List UInt8 → Program H X Unit} (hs : Sound ctx w)
    (hf : m.fn = .execute id) (h : external K child this w.now m w.state = .call s q k) :
    Dispatching K this id ⟨m, w, [], q, (w.record m).withState s, k⟩ := by
  cases hg : requireExecutable w.now w.state id with
  | error e =>
    rw [external_execute_error hf hg] at h
    cases h
  | ok u =>
    obtain ⟨hwf, a, n, ha, hn⟩ := hs.executable hg
    rw [external_execute_ok hf hg ha hn] at h
    split at h
    · cases h
    cases h
    refine ⟨hg, hwf, State.started_evolves .., ?_, by simp, n, ?_, rfl⟩
    · have hget : (w.state.actionsSets id).toList[0]? = some a := by
        rw [hwf.getElem?_toList]
        exact ha
      show [K.outCall a] = (List.take (0 + 1) _).map K.outCall
      rw [List.take_add_one, hget]
      rfl
    · show 0 + 1 + n = (w.state.actionsSets id).targets.length
      omega

/-- **Every waiting frame of `execute` knows where it is.** -/
theorem dispatching_of_reachable {c : ExecConfig H X Φ}
    (hc : Reachable (executor K child this) Constructed c) :
    ∀ f, Level.frame f ∈ c.stack → ∀ id, f.msg.fn = .execute id → Dispatching K this id f := by
  refine (executor_refines K child this).frames ?_ ?_ hc
  · intro ctx w m s q k hs he id hf
    exact dispatching_of_call hs hf he
  · intro ctx f w ok d s q k hs hP hk id hf
    exact (hP id hf).next (hs.evolves _ List.mem_cons_self) hk

/-- Only two functions wait for answers. -/
theorem waiting_of_reachable {c : ExecConfig H X Φ}
    (hc : Reachable (executor K child this) Constructed c) :
    ∀ f, Level.frame f ∈ c.stack → (∃ id, f.msg.fn = .execute id) ∨
      ∃ target data, f.msg.fn = .executeDelegateCall target data := by
  refine (executor_refines K child this).frames ?_ ?_ hc
  · intro ctx w m s q k hs he
    cases hp : plain K child this w.now m.toMsg w.state m.fn with
    | none =>
      cases hf : m.fn with
      | execute id => exact Or.inl ⟨id, rfl⟩
      | executeDelegateCall target data => exact Or.inr ⟨target, data, rfl⟩
      | _ => rw [hf] at hp; simp [plain] at hp
    | some r =>
      have he' : external K child this w.now m w.state = .call s q k := he
      rw [external_plain hp] at he'
      cases r <;> cases he'
  · intro ctx f w ok d s q k hs hP hk
    exact hP

/-! ## No index is out of range -/

/-- `execute` after an answer. -/
theorem execute_answer_ne_panicIndex {f : ExecFrame H X Φ} {id : Nat} {w : ExecWorld H X Φ}
    (h : Dispatching K this id f) (hw : f.before.state.Evolves w.state) (ok : Bool)
    (d : List UInt8) : f.k w.state ok d ≠ .fail .panicIndex := by
  intro hk
  obtain ⟨n, hn, hcont⟩ := h.rest
  rw [hcont, afterCall] at hk
  split at hk
  · next e hv =>
    cases hk
    exact verifyCallResult_ne_panic.1 hv
  · have harr := h.actions_eq hw
    have hwf : (w.state.actionsSets id).toActions.WellFormed := by rw [harr]; exact h.wellFormed
    have hlen : f.issued.length + 1 + n ≤ (w.state.actionsSets id).targets.length := by
      rw [harr]
      omega
    exact nomatch (executeLoop_eq_fail hwf hlen hk).1

/-- `execute` up to its first call. -/
theorem execute_ne_panicIndex {ctx : List (ExecOpen H X Φ)} {w : ExecWorld H X Φ}
    {m : Message Φ} {id : Nat} (hs : Sound ctx w) (hf : m.fn = .execute id) :
    external K child this w.now m w.state ≠ .fail .panicIndex := by
  intro h
  cases hg : requireExecutable w.now w.state id with
  | error e =>
    rw [external_execute_error hf hg] at h
    cases h
    exact requireExecutable_ne_panicIndex hg
  | ok u =>
    obtain ⟨-, a, n, ha, hn⟩ := hs.executable hg
    rw [external_execute_ok hf hg ha hn] at h
    split at h <;> cases h

/-- The loop of `cancel` over a stored set. -/
theorem cancel_ne_panicIndex {ctx : List (ExecOpen H X Φ)} {w : ExecWorld H X Φ}
    {sender : Address} {id : Nat} (hs : Sound ctx w) :
    BridgeExecutorBase.cancel K w.now sender id w.state ≠ .error .panicIndex := by
  intro h
  unfold BridgeExecutorBase.cancel onlyGuardian at h
  split at h
  · cases h
  cases hq : requireQueued w.now w.state id with
  | error e =>
    rw [hq] at h
    cases h
    exact requireQueued_ne_panicIndex hq
  | ok u =>
    have hstored : id < w.state.actionsSetCounter :=
      (getCurrentState_eq_queued.mp (requireQueued_eq_ok.mp hq)).1
    have hwf := hs.wellFormed id hstored
    have hloop : cancelLoop K { w.state.actionsSets id with canceled := true }
        (w.state.actionsSets id).targets.length 0 w.state.queuedActions = .ok _ :=
      cancelLoop_eq_ok.mpr ⟨fun j hj => by simpa using hwf.action? hj, rfl⟩
    rw [hq] at h
    simp only [hloop] at h
    cases h

end

/-! ## An example run

An executor on Arbitrum queues a set with one action and begins to execute it.
-/

namespace Example

def keccak : Keccak (List UInt8) where
  hash preimage := preimage
  bytes4 := List.take 4

def this : Address := 0xb0

def governance : Address := 0x60

abbrev child : Child L2Storage L2Fn := arbitrumBridgeExecutor

def start : State (List UInt8) L2Storage :=
  (((((blank ⟨governance⟩ 0).updateDelay 100).updateGracePeriod 600).updateMinimumDelay
    0).updateMaximumDelay 200).updateGuardian 7

def action : Action := ⟨5, 0, .empty, .empty, false⟩

def actions : Actions := ⟨[5], [0], [.empty], [.empty], [false]⟩

def queueMessage : Message L2Fn where
  sender := AddressAliasHelper.applyL1ToL2Alias governance
  value := 0
  xDomainMessageSender := .ok 0
  fn := .own (.queue actions)

def executeMessage : Message L2Fn where
  sender := 9
  value := 0
  xDomainMessageSender := .ok 0
  fn := .execute 0

/-- After the queue. -/
def queued : ExecConfig (List UInt8) L2Storage L2Fn :=
  ⟨((World.mk 1000 start []).record queueMessage).withState
    (start.queued keccak actions 1100), []⟩

/-- The delay has passed. -/
def matured : ExecWorld (List UInt8) L2Storage L2Fn := { queued.world with now := 1100 }

/-- The call of the only action is out. -/
def running : ExecConfig (List UInt8) L2Storage L2Fn :=
  let before := (matured.record executeMessage).withState
    (matured.state.started keccak this executeMessage.toMsg 0 action)
  ⟨before.withState ((executor keccak child this).issue (keccak.outCall action) before.state),
    [.frame ⟨executeMessage, matured, [], keccak.outCall action, before,
      afterCall keccak this 9 0 0 0 []⟩]⟩

theorem constructed_start (t : UInt256) : Constructed t start :=
  ⟨100, 600, 0, 200, 7, ⟨governance⟩, 0, rfl⟩

theorem wellFormed_actions : actions.WellFormed := ⟨by decide, rfl, rfl, rfl, rfl⟩

theorem external_queue : external keccak child this 1000 queueMessage start
    = .done (start.queued keccak actions 1100) () := by
  have hqueue : queue keccak 1000 actions start = .ok (start.queued keccak actions 1100) :=
    queue_eq_ok.mpr ⟨wellFormed_actions, by decide, List.nodup_singleton _, fun _ _ => rfl, rfl⟩
  show Prog.ofExcept (queue keccak 1000 actions start) = _
  rw [hqueue]
  rfl

theorem reachable_queued : Reachable (executor keccak child this) Constructed queued := by
  have hmay : (executor keccak child this).MayCall [] queueMessage.sender :=
    show queueMessage.sender ≠ this by decide
  exact .step (.init (constructed_start 1000)) (.callReturns hmay external_queue)

theorem reachable_matured :
    Reachable (executor keccak child this) Constructed ⟨matured, []⟩ :=
  .step reachable_queued (.advance (by decide))

theorem entry_matured :
    (executor keccak child this).entry matured.now executeMessage matured.state
      = .call (matured.state.started keccak this executeMessage.toMsg 0 action)
        (keccak.outCall action) (afterCall keccak this 9 0 0 0 []) := by
  have hg : requireExecutable matured.now matured.state 0 = .ok () := rfl
  show external keccak child this matured.now executeMessage matured.state = _
  rw [external_execute_ok (n := 0) rfl hg (a := action) rfl rfl]
  rfl

theorem reachable_running : Reachable (executor keccak child this) Constructed running := by
  have hmay : (executor keccak child this).MayCall [] executeMessage.sender :=
    show executeMessage.sender ≠ this by decide
  have h := Step.callSuspends (w := matured) hmay entry_matured
  exact .step reachable_matured h

end Example

end BridgeExecutor
