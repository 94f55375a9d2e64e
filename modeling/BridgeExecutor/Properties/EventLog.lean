import BridgeExecutor.Lib.Ledger
import BridgeExecutor.Properties.Bookkeeping
import BridgeExecutor.Properties.Lifecycle

/-!
# The events tell everything

Outside the chain an executor is known by its events.  `executorLedger` is the timelock as a
reader of the events sees it: it knows nothing of calls, frames and reverts.

Code that the executor delegatecalls logs at the same address, and may imitate the events of the
executor.  Here such a log is known for what it is, `Event.delegated`, and the ledger passes it
over.  As everywhere, delegatecalled code neither writes the storage nor destroys the executor.

`ActionsSetExecuted` is emitted when the last call of a set has returned, but the set is marked
before the first one.  A set that is being executed is therefore one that the reader still takes
for live, and `State.mirror` is the storage with those marks taken off.

* `Move.logged` — a move emits nothing and shows nothing, or emits one event that says it all
* `logged_of_reachable` — the mirror is what the ledger makes of the events
* `replay_logs` — the same, with the five events of the constructor in front
* `storage_eq_of_logs_eq` — between two transactions the events determine the storage
* `history_of_set` — the events about one set, and what `getCurrentState` says of it
-/

namespace BridgeExecutor

open Reentrant BridgeExecutorBase

variable {H X Φ : Type}

/-! ## The timelock as its events show it -/

/-- What a reader of the events knows of the storage. -/
structure Mirror (X : Type) where
  delay : UInt256
  gracePeriod : UInt256
  minimumDelay : UInt256
  maximumDelay : UInt256
  guardian : Address
  actionsSetCounter : Nat
  actionsSets : Nat → ActionsSet
  own : X

namespace Mirror

/-- Right after the construction. -/
structure Fresh (v : Mirror X) : Prop where
  actionsSetCounter : v.actionsSetCounter = 0
  actionsSets : v.actionsSets = fun _ => {}
  gracePeriod : minimumGracePeriod ≤ v.gracePeriod
  minimum_lt_maximum : v.minimumDelay < v.maximumDelay
  minimum_le : v.minimumDelay ≤ v.delay
  le_maximum : v.delay ≤ v.maximumDelay

/-- The events of the constructor. -/
def openingEvents (v : Mirror X) : List Event :=
  [.delayUpdate 0 v.delay, .gracePeriodUpdate 0 v.gracePeriod,
    .minimumDelayUpdate 0 v.minimumDelay, .maximumDelayUpdate 0 v.maximumDelay,
    .guardianUpdate 0 v.guardian]

def setActionsSet (v : Mirror X) (id : Nat) (a : ActionsSet) : Mirror X :=
  { v with actionsSets := Function.update v.actionsSets id a }

end Mirror

/-- The events that the inheriting contracts declare. -/
def Event.inherited : Event → Bool
  | .ethereumGovernanceExecutorUpdate _ _ => true
  | .fxRootSenderUpdate _ _ => true
  | .fxChildUpdate _ _ => true
  | _ => false

/-- The events that the executor emits itself. -/
def Event.isOwn : Event → Bool
  | .delegated _ _ => false
  | _ => true

/-- The log of the executor without those of delegatecalled code. -/
def State.ownLogs (s : State H X) : List Event := s.logs.filter Event.isOwn

/-- The event is about the set with the id `id`. -/
def Event.concerns (id : Nat) : Event → Bool
  | .actionsSetQueued id' _ _ => id' == id
  | .actionsSetExecuted id' _ _ => id' == id
  | .actionsSetCanceled id' => id' == id
  | _ => false

/-- The id that the event gives to a new set. -/
def Event.queuedId : Event → Option Nat
  | .actionsSetQueued id _ _ => some id
  | _ => none

/-- The events of an executor, over those of the inheriting contract. -/
def executorLedger (L : Ledger X Event) : Ledger (Mirror X) Event where
  accepts v
    | .actionsSetQueued id actions executionTime =>
      id = v.actionsSetCounter ∧ actions.WellFormed ∧ v.delay ≤ executionTime
    | .actionsSetExecuted id _ _ => id < v.actionsSetCounter ∧ (v.actionsSets id).Live
    | .actionsSetCanceled id => id < v.actionsSetCounter ∧ (v.actionsSets id).Live
    | .guardianUpdate old _ => old = v.guardian
    | .delayUpdate old new => old = v.delay ∧ v.minimumDelay ≤ new ∧ new ≤ v.maximumDelay
    | .gracePeriodUpdate old new => old = v.gracePeriod ∧ minimumGracePeriod ≤ new
    | .minimumDelayUpdate old new =>
      old = v.minimumDelay ∧ new < v.maximumDelay ∧ new ≤ v.delay
    | .maximumDelayUpdate old new =>
      old = v.maximumDelay ∧ v.minimumDelay < new ∧ v.delay ≤ new
    | .delegated _ _ => True
    | e => L.accepts v.own e
  apply v
    | .actionsSetQueued id actions executionTime =>
      { v.setActionsSet id ⟨actions, executionTime, false, false⟩ with
        actionsSetCounter := id + 1 }
    | .actionsSetExecuted id _ _ =>
      v.setActionsSet id { v.actionsSets id with executed := true }
    | .actionsSetCanceled id => v.setActionsSet id { v.actionsSets id with canceled := true }
    | .guardianUpdate _ new => { v with guardian := new }
    | .delayUpdate _ new => { v with delay := new }
    | .gracePeriodUpdate _ new => { v with gracePeriod := new }
    | .minimumDelayUpdate _ new => { v with minimumDelay := new }
    | .maximumDelayUpdate _ new => { v with maximumDelay := new }
    | .delegated _ _ => v
    | e => { v with own := L.apply v.own e }

/-- What delegatecalled code has logged may as well be left out. -/
theorem executorLedger_apply_of_not_own (L : Ledger X Event) (v : Mirror X) (e : Event)
    (he : e.isOwn = false) : (executorLedger L).apply v e = v := by
  cases e with
  | delegated topics data => rfl
  | _ => cases he

/-- An event of the inheriting contract is one of its own ledger. -/
theorem executorLedger_inherited (L : Ledger X Event) (v : Mirror X) {e : Event}
    (h : e.inherited = true) : ((executorLedger L).accepts v e ↔ L.accepts v.own e) ∧
      (executorLedger L).apply v e = { v with own := L.apply v.own e } := by
  cases e with
  | ethereumGovernanceExecutorUpdate old new => exact ⟨Iff.rfl, rfl⟩
  | fxRootSenderUpdate old new => exact ⟨Iff.rfl, rfl⟩
  | fxChildUpdate old new => exact ⟨Iff.rfl, rfl⟩
  | _ => cases h

/-- The inheriting contract announces what it writes to its storage. -/
def Child.Announces (child : Child X Φ) (L : Ledger X Event) : Prop :=
  ∀ this msg own f own' event, child.handle this msg own f = .ok (.write own' event) →
    event.inherited = true ∧ L.accepts own event ∧ L.apply own event = own'

/-- The event of `L2BridgeExecutor`. -/
def l2Ledger : Ledger L2Storage Event where
  accepts own
    | .ethereumGovernanceExecutorUpdate old _ => old = own.ethereumGovernanceExecutor
    | _ => False
  apply own
    | .ethereumGovernanceExecutorUpdate _ new => ⟨new⟩
    | _ => own

/-- The events of `PolygonBridgeExecutor`. -/
def polygonLedger : Ledger PolygonStorage Event where
  accepts own
    | .fxRootSenderUpdate old _ => old = own.fxRootSender
    | .fxChildUpdate old _ => old = own.fxChild
    | _ => False
  apply own
    | .fxRootSenderUpdate _ new => { own with fxRootSender := new }
    | .fxChildUpdate _ new => { own with fxChild := new }
    | _ => own

theorem announces_l2 (guard : Msg → L2Storage → Except Error Unit) :
    (l2BridgeExecutor guard).Announces l2Ledger := by
  intro this msg own f own' event h
  unfold l2BridgeExecutor at h
  cases f with
  | queue actions => dsimp only at h; split at h <;> cases h
  | updateEthereumGovernanceExecutor ethereumGovernanceExecutor =>
    dsimp only at h
    split at h
    · cases h
    · cases h
      exact ⟨rfl, rfl, rfl⟩

theorem announces_polygon (abiDecode : Bytes → Option Actions) :
    (polygonBridgeExecutor abiDecode).Announces polygonLedger := by
  intro this msg own f own' event h
  unfold polygonBridgeExecutor at h
  cases f with
  | processMessageFromRoot stateId rootMessageSender data =>
    dsimp only at h
    split at h
    · cases h
    split at h
    · cases h
    split at h <;> cases h
  | updateFxRootSender fxRootSender =>
    dsimp only at h
    split at h
    · cases h
    · cases h
      exact ⟨rfl, rfl, rfl⟩
  | updateFxChild fxChild =>
    dsimp only at h
    split at h
    · cases h
    · cases h
      exact ⟨rfl, rfl, rfl⟩

/-! ## The mirror of a state -/

/-- The function executes the set with the id `id`. -/
def Fn.executes (id : Nat) : Fn Φ → Bool
  | .execute id' => id' == id
  | _ => false

theorem Fn.executes_eq_true {id : Nat} {f : Fn Φ} : f.executes id = true ↔ f = .execute id := by
  cases f <;> simp [Fn.executes]

/-- The set with the id `id` is being executed. -/
def running (ctx : List (ExecOpen H X Φ)) (id : Nat) : Bool := ctx.any (·.msg.fn.executes id)

@[simp] theorem running_nil (id : Nat) : running ([] : List (ExecOpen H X Φ)) id = false := rfl

theorem running_cons {o : ExecOpen H X Φ} {ctx : List (ExecOpen H X Φ)} {id : Nat} :
    running (o :: ctx) id = (o.msg.fn.executes id || running ctx id) := rfl

theorem running_eq_true {ctx : List (ExecOpen H X Φ)} {id : Nat} :
    running ctx id = true ↔ ∃ o ∈ ctx, o.msg.fn = .execute id := by
  simp only [running, List.any_eq_true, Fn.executes_eq_true]

theorem running_eq_false {ctx : List (ExecOpen H X Φ)} {id : Nat} :
    running ctx id = false ↔ ∀ o ∈ ctx, o.msg.fn ≠ .execute id := by
  rw [Bool.eq_false_iff, Ne, running_eq_true]
  simp

/-- The slots, without the marks of the sets that are being executed. -/
def State.slots (ctx : List (ExecOpen H X Φ)) (s : State H X) (id : Nat) : ActionsSet :=
  if running ctx id then { s.actionsSets id with executed := false } else s.actionsSets id

theorem State.slots_of_not_running {ctx : List (ExecOpen H X Φ)} {s : State H X} {id : Nat}
    (h : running ctx id = false) : s.slots ctx id = s.actionsSets id := by
  rw [State.slots, h]
  rfl

theorem State.slots_of_running {ctx : List (ExecOpen H X Φ)} {s : State H X} {id : Nat}
    (h : running ctx id = true) :
    s.slots ctx id = { s.actionsSets id with executed := false } := by
  rw [State.slots, h]
  rfl

@[simp] theorem State.slots_nil (s : State H X) :
    s.slots ([] : List (ExecOpen H X Φ)) = s.actionsSets := rfl

/-- A set is written that is not being executed. -/
theorem State.slots_update {ctx : List (ExecOpen H X Φ)} {s s' : State H X} {id : Nat}
    {a : ActionsSet} (hs : s'.actionsSets = Function.update s.actionsSets id a)
    (hrun : running ctx id = false) :
    s'.slots ctx = Function.update (s.slots ctx) id a := by
  funext id'
  by_cases hid : id' = id
  · subst hid
    rw [State.slots_of_not_running hrun, Function.update_self, hs, Function.update_self]
  · rw [Function.update_of_ne hid, State.slots, State.slots, hs, Function.update_of_ne hid]

/-- The storage as a reader of the events knows it. -/
def State.mirror (ctx : List (ExecOpen H X Φ)) (s : State H X) : Mirror X where
  delay := s.delay
  gracePeriod := s.gracePeriod
  minimumDelay := s.minimumDelay
  maximumDelay := s.maximumDelay
  guardian := s.guardian
  actionsSetCounter := s.actionsSetCounter
  actionsSets := s.slots ctx
  own := s.own

/-- The frames count for the sets that they execute only. -/
theorem State.mirror_congr {ctx ctx' : List (ExecOpen H X Φ)} {s : State H X}
    (h : ∀ id, running ctx' id = running ctx id) : s.mirror ctx' = s.mirror ctx := by
  rw [State.mirror, State.mirror, Mirror.mk.injEq]
  refine ⟨rfl, rfl, rfl, rfl, rfl, rfl, ?_, rfl⟩
  funext id
  rw [State.slots, State.slots, h]

theorem Sound.not_running {ctx : List (ExecOpen H X Φ)} {w : ExecWorld H X Φ}
    (h : Sound ctx w) {id : Nat} (hlive : (w.state.actionsSets id).Live) :
    running ctx id = false := running_eq_false.mpr (h.not_executing hlive)

/-- An executed set has not been canceled. -/
theorem Settled.not_canceled {w : ExecWorld H X Φ} (h : Settled w) {id : Nat}
    (hexecuted : (w.state.actionsSets id).executed = true) :
    (w.state.actionsSets id).canceled = false := by
  refine Bool.eq_false_iff.mpr fun hcanceled => ?_
  have hsame : Mark.executed = .canceled := h.exclusive hexecuted hcanceled
  cases hsame

/-! ## What a move emits -/

/-- The frame of `execute` ends and the mark shows. -/
theorem State.mirror_finish {L : Ledger X Event} {o : ExecOpen H X Φ}
    {ctx : List (ExecOpen H X Φ)} {s : State H X} {id : Nat} (hf : o.msg.fn = .execute id)
    (hexecuted : (s.actionsSets id).executed = true) (hrun : running ctx id = false)
    (sender : Address) (rd : List (List UInt8)) :
    (s.emit (.actionsSetExecuted id sender rd)).mirror ctx
      = (executorLedger L).apply (s.mirror (o :: ctx)) (.actionsSetExecuted id sender rd) := by
  have hslots : s.slots ctx = Function.update (s.slots (o :: ctx)) id
      { s.slots (o :: ctx) id with executed := true } := by
    funext id'
    by_cases hid : id' = id
    · subst hid
      have hrun' : running (o :: ctx) id' = true :=
        running_eq_true.mpr ⟨o, List.mem_cons_self, hf⟩
      rw [Function.update_self, State.slots_of_running hrun', State.slots_of_not_running hrun]
      generalize s.actionsSets id' = slot at hexecuted
      cases slot
      cases hexecuted
      rfl
    · have hne : o.msg.fn.executes id' = false := by
        rw [hf]
        simpa [Fn.executes] using Ne.symm hid
      rw [Function.update_of_ne hid, State.slots, State.slots, running_cons, hne, Bool.false_or]
  show (⟨_, _, _, _, _, _, s.slots ctx, _⟩ : Mirror X) = _
  rw [hslots]
  rfl

section

variable [DecidableEq H] {K : Keccak H} {child : Child X Φ} {this : Address}
  {L : Ledger X Event}

/-- `_queue` on a free slot. -/
theorem State.mirror_queued {ctx : List (ExecOpen H X Φ)} {s : State H X} {a : Actions}
    {t : UInt256} (hfree : s.actionsSets s.actionsSetCounter = {})
    (hrun : running ctx s.actionsSetCounter = false) :
    (s.queued K a t).mirror ctx
      = (executorLedger L).apply (s.mirror ctx) (.actionsSetQueued s.actionsSetCounter a t) := by
  have hslots := State.slots_update (State.queued_actionsSets (K := K) hfree a t) hrun
  show (⟨_, _, _, _, _, _, (s.queued K a t).slots ctx, _⟩ : Mirror X) = _
  rw [hslots]
  rfl

theorem State.mirror_cancel {ctx : List (ExecOpen H X Φ)} {s : State H X} {id : Nat}
    (hrun : running ctx id = false) :
    (s.cancel K id).mirror ctx
      = (executorLedger L).apply (s.mirror ctx) (.actionsSetCanceled id) := by
  have hslots : (s.cancel K id).slots ctx
      = Function.update (s.slots ctx) id { s.actionsSets id with canceled := true } :=
    State.slots_update rfl hrun
  show (⟨_, _, _, _, _, _, (s.cancel K id).slots ctx, _⟩ : Mirror X) = _
  rw [hslots, ← State.slots_of_not_running hrun]
  rfl

/-- `execute` marks a set and puts it on the stack, which takes the mark off the mirror. -/
theorem State.mirror_started {ctx : List (ExecOpen H X Φ)} {s : State H X} {m : Message Φ}
    {id : Nat} {a : Action} (hf : m.fn = .execute id) (hlive : (s.actionsSets id).Live)
    (hrun : running ctx id = false) (w : ExecWorld H X Φ) :
    (s.started K this m.toMsg id a).mirror (⟨m, 0, w⟩ :: ctx) = s.mirror ctx := by
  have hslots : (s.started K this m.toMsg id a).slots (⟨m, 0, w⟩ :: ctx) = s.slots ctx := by
    funext id'
    by_cases hid : id' = id
    · subst hid
      have hrun' : running (⟨m, 0, w⟩ :: ctx) id' = true := by
        rw [running_cons, hf]
        simp [Fn.executes]
      rw [State.slots_of_running hrun', State.slots_of_not_running hrun, started_actionsSets,
        Function.update_self]
      have hexecuted := hlive.1
      generalize s.actionsSets id' = slot at hexecuted
      cases slot
      cases hexecuted
      rfl
    · have hne : m.fn.executes id' = false := by
        rw [hf]
        simpa [Fn.executes] using Ne.symm hid
      rw [State.slots, State.slots, running_cons, hne, Bool.false_or, started_actionsSets,
        Function.update_of_ne hid]
  obtain ⟨b, hb⟩ := receive_eq_setBalance s this m.toMsg
  rw [State.mirror, hslots, State.started, hb]
  rfl

/-- What the functions without outgoing calls emit. -/
theorem Writes.logged (hL : child.Announces L) {ctx : List (ExecOpen H X Φ)}
    {w : ExecWorld H X Φ} {m : Message Φ} {s : State H X} (hs : Sound ctx w)
    (hst : Stored child this w) (h : Writes K child this w.now m.toMsg w.state m.fn s) :
    (s.logs = w.state.logs ∧ s.mirror ctx = w.state.mirror ctx) ∨
    ∃ e, s.logs = w.state.logs ++ [e] ∧ (executorLedger L).accepts (w.state.mirror ctx) e ∧
      s.mirror ctx = (executorLedger L).apply (w.state.mirror ctx) e := by
  generalize m.fn = f at h
  cases h with
  | @cancel id hg hq =>
    obtain ⟨hid, hlive, -⟩ := getCurrentState_eq_queued.mp hq
    have hrun := hs.not_running hlive
    refine Or.inr ⟨.actionsSetCanceled id, rfl, ⟨hid, ?_⟩, State.mirror_cancel hrun⟩
    show (w.state.slots ctx id).Live
    rw [State.slots_of_not_running hrun]
    exact hlive
  | updateGuardian _ => exact Or.inr ⟨_, rfl, rfl, rfl⟩
  | updateDelay _ hd => exact Or.inr ⟨_, rfl, ⟨rfl, hd⟩, rfl⟩
  | updateGracePeriod _ hg => exact Or.inr ⟨_, rfl, ⟨rfl, hg⟩, rfl⟩
  | updateMinimumDelay _ hlt hd => exact Or.inr ⟨_, rfl, ⟨rfl, hlt, hd.1⟩, rfl⟩
  | updateMaximumDelay _ hlt hd => exact Or.inr ⟨_, rfl, ⟨rfl, hlt, hd.2⟩, rfl⟩
  | receiveFunds =>
    obtain ⟨b, hb⟩ := receive_eq_setBalance w.state this m.toMsg
    rw [hb]
    exact Or.inl ⟨rfl, rfl⟩
  | @queue f a hh hwf hsum hnd hfree =>
    have hslot := hst.free _ (Nat.le_refl _)
    have hrun : running ctx w.state.actionsSetCounter = false := by
      refine hs.not_running ?_
      rw [hslot]
      exact ⟨rfl, rfl⟩
    have hle : w.state.delay ≤ w.now + w.state.delay := by
      rw [BitVec.le_def, toNat_add_of_lt hsum]
      omega
    exact Or.inr ⟨_, rfl, ⟨rfl, hwf, hle⟩, State.mirror_queued hslot hrun⟩
  | @write f own event hh =>
    obtain ⟨hinh, hacc, happ⟩ := hL _ _ _ _ _ _ hh
    obtain ⟨hacc', happ'⟩ := executorLedger_inherited L (w.state.mirror ctx) hinh
    refine Or.inr ⟨event, rfl, hacc'.mpr hacc, ?_⟩
    rw [happ']
    subst happ
    rfl

/-- **What a move shows.** -/
theorem Move.logged (hL : child.Announces L) {l : Option (Message Φ)}
    {ctx ctx' : List (ExecOpen H X Φ)} {w w' : ExecWorld H X Φ} (hs : Sound ctx w)
    (hst : Stored child this w) (hset : Settled w) (h : Move K child this l ctx w ctx' w') :
    (w'.state.logs = w.state.logs ∧ w'.state.mirror ctx' = w.state.mirror ctx) ∨
    ∃ e, w'.state.logs = w.state.logs ++ [e] ∧
      (executorLedger L).accepts (w.state.mirror ctx) e ∧
      w'.state.mirror ctx' = (executorLedger L).apply (w.state.mirror ctx) e := by
  cases h with
  | write _ hw => exact hw.logged hL hs hst
  | @begin _ _ m id a hf hq ht ha =>
    -- the mark is made and taken off the mirror at once
    obtain ⟨hid, hlive, -⟩ := getCurrentState_eq_queued.mp hq
    obtain ⟨b, hb⟩ := receive_eq_setBalance w.state this m.toMsg
    refine Or.inl ⟨?_, ?_⟩
    · show (w.state.started K this m.toMsg id a).logs = _
      rw [State.started, hb]
      rfl
    · exact State.mirror_started hf hlive (hs.not_running hlive) _
  | @delegate _ _ m target data hf hs' hne =>
    refine Or.inl ⟨rfl, State.mirror_congr fun id => ?_⟩
    rw [running_cons, hf]
    rfl
  | @next o ctx _ id a hf ha => exact Or.inl ⟨rfl, rfl⟩
  | @finish o _ _ id rd hf hn =>
    obtain ⟨hid, hexecuted⟩ := hs.executed List.mem_cons_self hf
    have hrun : running ctx' id = false := running_eq_false.mpr (hs.others hf)
    have hrun' : running (o :: ctx') id = true :=
      running_eq_true.mpr ⟨o, List.mem_cons_self, hf⟩
    refine Or.inr ⟨_, rfl, ⟨hid, ?_⟩, State.mirror_finish hf hexecuted hrun o.msg.sender rd⟩
    show (w.state.slots (o :: ctx') id).Live
    rw [State.slots_of_running hrun']
    exact ⟨rfl, hset.not_canceled hexecuted⟩
  | @finishDelegate o ctx _ target data hf =>
    refine Or.inl ⟨rfl, State.mirror_congr fun id => ?_⟩
    rw [running_cons, hf]
    rfl
  | balance => exact Or.inl ⟨rfl, rfl⟩
  | @log _ _ topics data => exact Or.inr ⟨.delegated topics data, rfl, trivial, rfl⟩
  | advance ht => exact Or.inl ⟨rfl, rfl⟩

end

/-! ## The log of a run -/

/-- A successful construction that leaves `own` in the storage of the inheriting contract, which
no event of the constructor tells. -/
def ConstructedWith (own : X) (t : UInt256) (s : State H X) : Prop :=
  Constructed t s ∧ s.own = own

/-- What is known before the first event. -/
def Mirror.blank (own : X) : Mirror X := ⟨0, 0, 0, 0, 0, 0, fun _ => {}, own⟩

/-- The log of `s` consists of the constructor's events, after which a reader knows `start`, and
of `es`. -/
structure Logged (L : Ledger X Event) (ctx : List (ExecOpen H X Φ)) (s : State H X)
    (start : Mirror X) (es : List Event) : Prop where
  fresh : start.Fresh
  logs : s.logs = start.openingEvents ++ es
  legal : (executorLedger L).Legal start es
  mirror : (executorLedger L).replay start es = s.mirror ctx

section

variable {L : Ledger X Event}

theorem ConstructedWith.logged {own : X} {t : UInt256} {s : State H X}
    (h : ConstructedWith own t s) :
    Logged (Φ := Φ) L [] s (s.mirror ([] : List (ExecOpen H X Φ))) [] := by
  obtain ⟨⟨delay, gracePeriod, minimumDelay, maximumDelay, guardian, own', balance, hs⟩, -⟩ := h
  obtain ⟨⟨hg, hlt, hmin, hmax⟩, rfl⟩ := construct_eq_ok.mp hs
  exact ⟨⟨rfl, rfl, hg, hlt, hmin, hmax⟩, rfl, trivial, rfl⟩

/-- The constructor's events tell everything but the storage of the inheriting contract. -/
theorem Mirror.Fresh.replay_openingEvents {start : Mirror X} (h : start.Fresh) :
    (executorLedger L).replay (Mirror.blank start.own) start.openingEvents = start := by
  obtain ⟨delay, gracePeriod, minimumDelay, maximumDelay, guardian, counter, sets, own⟩ := start
  obtain ⟨rfl, rfl, -, -, -, -⟩ := h
  rfl

/-- With no frame open, the flags follow from the sets. -/
theorem Booked.flags_eq {K : Keccak H} {s s' : State H X} (h : Booked (Φ := Φ) K [] s)
    (h' : Booked (Φ := Φ) K [] s')
    (hmirror : s'.mirror ([] : List (ExecOpen H X Φ)) = s.mirror ([] : List (ExecOpen H X Φ))) :
    s'.queuedActions = s.queuedActions := by
  have hcounter : s'.actionsSetCounter = s.actionsSetCounter :=
    congrArg Mirror.actionsSetCounter hmirror
  have hsets : s'.actionsSets = s.actionsSets := congrArg Mirror.actionsSets hmirror
  have hkey : s'.actionKey K = s.actionKey K := by
    funext p
    rw [State.actionKey, State.actionKey, hsets]
  funext x
  rw [Bool.eq_iff_iff, h.flag, h'.flag, hkey]
  simp only [active_nil, hcounter, hsets]

/-- All of the storage is told by the events or derived from what they tell. -/
theorem State.eq_of_mirror {s s' : State H X}
    (hmirror : s'.mirror ([] : List (ExecOpen H X Φ)) = s.mirror ([] : List (ExecOpen H X Φ)))
    (hflags : s'.queuedActions = s.queuedActions) :
    s' = { s with balance := s'.balance, logs := s'.logs } := by
  rw [State.mirror, State.mirror, Mirror.mk.injEq] at hmirror
  obtain ⟨hdelay, hgrace, hmin, hmax, hguardian, hcounter, hsets, hown⟩ := hmirror
  cases s
  cases s'
  rw [State.mk.injEq]
  exact ⟨hdelay, hgrace, hmin, hmax, hguardian, hcounter, hsets, hflags, hown, rfl, rfl⟩

/-- The executor's own events do it alone. -/
theorem Logged.ownLogs {ctx : List (ExecOpen H X Φ)} {s : State H X} {start : Mirror X}
    {es : List Event} (h : Logged L ctx s start es) : ∃ es',
    s.ownLogs = start.openingEvents ++ es' ∧ (executorLedger L).Legal start es' ∧
      (executorLedger L).replay start es' = s.mirror ctx := by
  refine ⟨es.filter Event.isOwn, ?_, h.legal.filter (executorLedger_apply_of_not_own L), ?_⟩
  · rw [State.ownLogs, h.logs, List.filter_append]
    rfl
  · rw [Ledger.replay_filter (executorLedger_apply_of_not_own L), h.mirror]

theorem Logged.replay {ctx : List (ExecOpen H X Φ)} {s : State H X} {start : Mirror X}
    {es : List Event} (h : Logged L ctx s start es) :
    (executorLedger L).replay (Mirror.blank start.own) s.ownLogs = s.mirror ctx := by
  obtain ⟨es', hlogs, -, hmirror⟩ := h.ownLogs
  rw [hlogs, Ledger.replay_append, h.fresh.replay_openingEvents, hmirror]

end

namespace Example

theorem reachable_queued_with : Reachable (executor keccak child this)
    (ConstructedWith ⟨governance⟩) queued := by
  have hmay : (executor keccak child this).MayCall [] queueMessage.sender :=
    show queueMessage.sender ≠ this by decide
  exact .step (.init ⟨constructed_start 1000, rfl⟩) (.callReturns hmay external_queue)

theorem reachable_running_with : Reachable (executor keccak child this)
    (ConstructedWith ⟨governance⟩) running := by
  have hmay : (executor keccak child this).MayCall [] executeMessage.sender :=
    show executeMessage.sender ≠ this by decide
  have h := Step.callSuspends (w := matured) hmay entry_matured
  exact .step (.step reachable_queued_with (.advance (by decide))) h

def fundMessage : Message L2Fn where
  sender := 9
  value := 3
  xDomainMessageSender := .ok 0
  fn := .receiveFunds

/-- Somebody sends ether after the queue. -/
def funded : ExecConfig (List UInt8) L2Storage L2Fn :=
  ⟨(queued.world.record fundMessage).withState
    (queued.world.state.receive this fundMessage.toMsg), []⟩

theorem reachable_funded_with : Reachable (executor keccak child this)
    (ConstructedWith ⟨governance⟩) funded := by
  have hmay : (executor keccak child this).MayCall [] fundMessage.sender :=
    show fundMessage.sender ≠ this by decide
  exact .step reachable_queued_with (.callReturns (w := queued.world) hmay rfl)

end Example

section

variable [DecidableEq H] {K : Keccak H} {child : Child X Φ} {this : Address}
  {L : Ledger X Event}

/-- One move more. -/
theorem Logged.keep (hL : child.Announces L) {l : Option (Message Φ)}
    {ctx ctx' : List (ExecOpen H X Φ)} {w w' : ExecWorld H X Φ} (hs : Sound ctx w)
    (hst : Stored child this w) (hset : Settled w) (hm : Move K child this l ctx w ctx' w')
    {start : Mirror X} {es : List Event} (h : Logged L ctx w.state start es) :
    ∃ es', Logged L ctx' w'.state start es' := by
  rcases hm.logged hL hs hst hset with ⟨hlogs, hmirror⟩ | ⟨e, hlogs, haccepts, hmirror⟩
  · exact ⟨es, h.fresh, hlogs.trans h.logs, h.legal, h.mirror.trans hmirror.symm⟩
  · rw [← h.mirror] at haccepts hmirror
    refine ⟨es ++ [e], h.fresh, ?_, h.legal.concat haccepts, ?_⟩
    · rw [hlogs, h.logs, List.append_assoc]
    · rw [Ledger.replay_concat, hmirror]

/-- **In every reachable configuration the mirror is what the ledger makes of the events.** -/
theorem logged_of_reachable (hL : child.Announces L) {own : X} {c : ExecConfig H X Φ}
    (hc : Reachable (executor K child this) (ConstructedWith own) c) :
    ∃ start es, start.own = own ∧ Logged L (opens c.stack) c.world.state start es := by
  have hrely : Refines (executor K child this) (ConstructedWith own) (Move K child this)
      fun ctx w => (Sound ctx w ∧ w.state.ValidConfig ∧ Stored child this w) ∧ Settled w :=
    { (executor_refines_stored K child this).and (fun h => h.settled)
        (fun hm _ h => h.keep hm) with
      init := fun h => ⟨⟨h.1.sound, h.1.validConfig, h.1.stored⟩, h.1.settled⟩ }
  refine hrely.invariant
    (I := fun ctx w => ∃ start es, start.own = own ∧ Logged L ctx w.state start es)
    (fun h => ⟨_, _, h.2, h.logged⟩) ?_ hc
  rintro l ctx w ctx' w' hm ⟨⟨hs, -, hst⟩, hset⟩ ⟨start, es, hown, h⟩
  obtain ⟨es', h'⟩ := h.keep hL hs hst hset hm
  exact ⟨start, es', hown, h'⟩

/--
**The events of an executor are a run of the ledger, and lead to its storage.**

Reading the executor's own events from the first one, with nothing known but the storage the
inheriting contract was constructed with, gives the storage as it is at this moment, inside frames
as well: only the sets that are being executed are not marked yet.  What delegatecalled code has
logged at the same address is left out.
-/
theorem replay_logs (hL : child.Announces L) {own : X} {c : ExecConfig H X Φ}
    (hc : Reachable (executor K child this) (ConstructedWith own) c) :
    (executorLedger L).replay (Mirror.blank own) c.world.state.ownLogs
      = c.world.state.mirror (opens c.stack) ∧
    ∃ start es, Mirror.Fresh start ∧ c.world.state.ownLogs = start.openingEvents ++ es ∧
      (executorLedger L).Legal start es := by
  obtain ⟨start, es, rfl, h⟩ := logged_of_reachable hL hc
  obtain ⟨es', hlogs, hlegal, -⟩ := h.ownLogs
  exact ⟨h.replay, start, es', h.fresh, hlogs, hlegal⟩

/-- While the call of the example run is out, its set is still live for a reader. -/
theorem replay_logs_running :
    (executorLedger l2Ledger).replay (Mirror.blank ⟨Example.governance⟩)
        Example.running.world.state.ownLogs
      = Example.running.world.state.mirror (opens Example.running.stack) ∧
    ((Example.running.world.state.mirror (opens Example.running.stack)).actionsSets 0).Live :=
  ⟨(replay_logs (announces_l2 _) Example.reachable_running_with).1, by decide⟩

/-! ## What the log determines -/

/--
**Between two transactions the events determine the storage.**

Two histories of an executor, of whatever calls, in which its functions have emitted the same
events lead to the same storage, the flags included.  The ether may differ, and so may what
delegatecalled code has logged.
-/
theorem storage_eq_of_logs_eq (hL : child.Announces L) {own : X} {c c' : ExecConfig H X Φ}
    (hc : Reachable (executor K child this) (ConstructedWith own) c)
    (hc' : Reachable (executor K child this) (ConstructedWith own) c')
    (hempty : c.stack = []) (hempty' : c'.stack = [])
    (hlogs : c'.world.state.ownLogs = c.world.state.ownLogs) :
    c'.world.state = { c.world.state with
      balance := c'.world.state.balance, logs := c'.world.state.logs } := by
  obtain ⟨start, es, hown, h⟩ := logged_of_reachable hL hc
  obtain ⟨start', es', hown', h'⟩ := logged_of_reachable hL hc'
  have hmirror : c'.world.state.mirror (opens c'.stack)
      = c.world.state.mirror (opens c.stack) := by
    rw [← h.replay, ← h'.replay, hlogs, hown, hown']
  have hbooked := booked_of_reachable (hc.mono fun _ _ h => h.1)
  have hbooked' := booked_of_reachable (hc'.mono fun _ _ h => h.1)
  rw [hempty, opens_nil] at hmirror hbooked
  rw [hempty', opens_nil] at hmirror hbooked'
  exact State.eq_of_mirror hmirror (hbooked.flags_eq hbooked' hmirror)

/-- Ether that is sent to the executor leaves no event and changes the balance only. -/
theorem storage_eq_of_logs_eq_funded :
    Example.funded.world.state = Example.queued.world.state.setBalance 3 :=
  storage_eq_of_logs_eq (announces_l2 _) Example.reachable_queued_with
    Example.reachable_funded_with rfl rfl rfl

end

/-! ## The events about one set -/

section

variable {L : Ledger X Event} {id : Nat}

/-- The event with which the set in the slot `id` was queued. -/
def Mirror.queuedEvent (v : Mirror X) (id : Nat) : Event :=
  .actionsSetQueued id (v.actionsSets id).toActions (v.actionsSets id).executionTime

/-- What the events about the set `id` are, given what they lead to. -/
inductive Tells (id : Nat) (v : Mirror X) : List Event → Prop where
  | nothing : v.actionsSetCounter ≤ id → Tells id v []
  | queued : id < v.actionsSetCounter → (v.actionsSets id).Live → Tells id v [v.queuedEvent id]
  | executed {sender rd} : id < v.actionsSetCounter → (v.actionsSets id).executed = true →
      (v.actionsSets id).canceled = false →
      Tells id v [v.queuedEvent id, .actionsSetExecuted id sender rd]
  | canceled : id < v.actionsSetCounter → (v.actionsSets id).executed = false →
      (v.actionsSets id).canceled = true →
      Tells id v [v.queuedEvent id, .actionsSetCanceled id]

namespace Tells

variable {v v' : Mirror X} {es : List Event}

/-- Nothing happens to the slot. -/
theorem congr (h : Tells id v es) (hlt : id < v.actionsSetCounter → id < v'.actionsSetCounter)
    (hle : v.actionsSetCounter ≤ id → v'.actionsSetCounter ≤ id)
    (hslot : v'.actionsSets id = v.actionsSets id) : Tells id v' es := by
  have hevent : v'.queuedEvent id = v.queuedEvent id := by
    rw [Mirror.queuedEvent, Mirror.queuedEvent, hslot]
  cases h with
  | nothing hid => exact .nothing (hle hid)
  | queued hid hlive => rw [← hevent]; exact .queued (hlt hid) (by rw [hslot]; exact hlive)
  | executed hid he hc =>
    rw [← hevent]
    exact .executed (hlt hid) (by rw [hslot]; exact he) (by rw [hslot]; exact hc)
  | canceled hid he hc =>
    rw [← hevent]
    exact .canceled (hlt hid) (by rw [hslot]; exact he) (by rw [hslot]; exact hc)

/-- Nothing has been said about a set that is not there. -/
theorem eq_nil (h : Tells id v es) (hid : v.actionsSetCounter ≤ id) : es = [] := by
  cases h with
  | nothing _ => rfl
  | queued hlt _ => omega
  | executed hlt _ _ => omega
  | canceled hlt _ _ => omega

/-- Of a live set it is only said that it was queued. -/
theorem eq_queued (h : Tells id v es) (hid : id < v.actionsSetCounter)
    (hlive : (v.actionsSets id).Live) : es = [v.queuedEvent id] := by
  cases h with
  | nothing hle => omega
  | queued _ _ => rfl
  | executed _ he _ => rw [hlive.1] at he; cases he
  | canceled _ _ hc => rw [hlive.2] at hc; cases hc

/-- An event about something else. -/
theorem skip (h : Tells id v es) {e : Event} (he : e.concerns id = false)
    (hlt : id < v.actionsSetCounter → id < v'.actionsSetCounter)
    (hle : v.actionsSetCounter ≤ id → v'.actionsSetCounter ≤ id)
    (hslot : v'.actionsSets id = v.actionsSets id) :
    Tells id v' (es ++ [e].filter (·.concerns id)) := by
  rw [List.filter_cons_of_neg (by rw [he]; nofun), List.filter_nil, List.append_nil]
  exact h.congr hlt hle hslot

/-- One more event that may occur. -/
theorem step (h : Tells id v es) {e : Event} (he : (executorLedger L).accepts v e) :
    Tells id ((executorLedger L).apply v e) (es ++ [e].filter (·.concerns id)) := by
  cases e with
  | actionsSetQueued id' a t =>
    obtain ⟨rfl, -, -⟩ := he
    by_cases hid : v.actionsSetCounter = id
    · obtain rfl := h.eq_nil (Nat.le_of_eq hid)
      subst hid
      have hslot : ((executorLedger L).apply v (.actionsSetQueued v.actionsSetCounter a
          t)).actionsSets v.actionsSetCounter = ⟨a, t, false, false⟩ := Function.update_self ..
      have htells := Tells.queued (v := (executorLedger L).apply v
        (.actionsSetQueued v.actionsSetCounter a t)) (Nat.lt_succ_self v.actionsSetCounter)
        (by rw [hslot]; exact ⟨rfl, rfl⟩)
      rw [Mirror.queuedEvent, hslot] at htells
      simpa [Event.concerns] using htells
    · exact h.skip (by simpa [Event.concerns] using hid) (fun hlt => Nat.lt_succ_of_lt hlt)
        (fun hle => Nat.lt_of_le_of_ne hle hid) (Function.update_of_ne (Ne.symm hid) _ _)
  | actionsSetExecuted id' sender rd =>
    obtain ⟨hlt, hlive⟩ := he
    by_cases hid : id' = id
    · subst hid
      obtain rfl := h.eq_queued hlt hlive
      have hslot : ((executorLedger L).apply v (.actionsSetExecuted id' sender rd)).actionsSets id'
          = { v.actionsSets id' with executed := true } := Function.update_self ..
      have htells : Tells id' ((executorLedger L).apply v (.actionsSetExecuted id' sender rd))
          [_, .actionsSetExecuted id' sender rd] :=
        .executed hlt (by rw [hslot]) (by rw [hslot]; exact hlive.2)
      rw [Mirror.queuedEvent, hslot] at htells
      simpa [Event.concerns, Mirror.queuedEvent] using htells
    · exact h.skip (by simpa [Event.concerns] using hid) (fun hlt => hlt) (fun hle => hle)
        (Function.update_of_ne (Ne.symm hid) _ _)
  | actionsSetCanceled id' =>
    obtain ⟨hlt, hlive⟩ := he
    by_cases hid : id' = id
    · subst hid
      obtain rfl := h.eq_queued hlt hlive
      have hslot : ((executorLedger L).apply v (.actionsSetCanceled id')).actionsSets id'
          = { v.actionsSets id' with canceled := true } := Function.update_self ..
      have htells := Tells.canceled (v := (executorLedger L).apply v
        (.actionsSetCanceled id')) hlt (by rw [hslot]; exact hlive.1) (by rw [hslot])
      rw [Mirror.queuedEvent, hslot] at htells
      simpa [Event.concerns, Mirror.queuedEvent] using htells
    · exact h.skip (by simpa [Event.concerns] using hid) (fun hlt => hlt) (fun hle => hle)
        (Function.update_of_ne (Ne.symm hid) _ _)
  | _ => exact h.skip rfl (fun hlt => hlt) (fun hle => hle) rfl

/-- The events of a legal log about one set. -/
theorem of_legal {start : Mirror X} (hstart : start.Fresh)
    (hes : (executorLedger L).Legal start es) :
    Tells id ((executorLedger L).replay start es) (es.filter (·.concerns id)) := by
  refine hes.history (P := fun es => Tells id ((executorLedger L).replay start es)
    (es.filter (·.concerns id))) (.nothing ?_) ?_
  · rw [Ledger.replay_nil, hstart.actionsSetCounter]
    exact Nat.zero_le _
  · intro es e _ he ih
    rw [Ledger.replay_concat, List.filter_append]
    exact ih.step he

end Tells

/-- Sets are given the ids 0, 1, 2, … in the order of the events. -/
theorem queuedIds_of_legal {start : Mirror X} (hstart : start.Fresh) {es : List Event}
    (hes : (executorLedger L).Legal start es) : es.filterMap Event.queuedId
      = List.range ((executorLedger L).replay start es).actionsSetCounter := by
  refine hes.history (P := fun es => es.filterMap Event.queuedId
    = List.range ((executorLedger L).replay start es).actionsSetCounter) ?_ ?_
  · rw [Ledger.replay_nil, hstart.actionsSetCounter]
    rfl
  · intro es e _ he ih
    rw [List.filterMap_append, ih, Ledger.replay_concat]
    cases e with
    | actionsSetQueued id a t =>
      obtain ⟨rfl, -, -⟩ := he
      exact List.range_succ.symm
    | _ => exact List.append_nil _

end

/-- What the log says about one set, and in which order the sets were queued. -/
theorem Logged.tells {L : Ledger X Event} {ctx : List (ExecOpen H X Φ)} {s : State H X}
    {start : Mirror X} {es : List Event} (h : Logged L ctx s start es) (id : Nat) :
    Tells id (s.mirror ctx) (s.ownLogs.filter (·.concerns id)) ∧
      s.ownLogs.filterMap Event.queuedId = List.range s.actionsSetCounter := by
  obtain ⟨es', hlogs, hlegal, hmirror⟩ := h.ownLogs
  have hcounter : ((executorLedger L).replay start es').actionsSetCounter = s.actionsSetCounter :=
    congrArg Mirror.actionsSetCounter hmirror
  rw [hlogs, List.filter_append, List.filterMap_append, ← hmirror, ← hcounter,
    ← queuedIds_of_legal h.fresh hlegal]
  exact ⟨Tells.of_legal h.fresh hlegal, rfl⟩

theorem getCurrentState_eq_invalid {now : UInt256} {s : State H X} {id : Nat} :
    getCurrentState now s id = .error .invalidActionsSetId ↔ s.actionsSetCounter ≤ id := by
  rw [getCurrentState_eq_iff]
  constructor
  · rintro ⟨⟩
    assumption
  · exact .invalid

/-- With no frame open, the events about a set say what `getCurrentState` says. -/
theorem Tells.getCurrentState {s : State H X} {id : Nat} {es : List Event}
    (h : Tells id (s.mirror ([] : List (ExecOpen H X Φ))) es) (now : UInt256) :
    (getCurrentState now s id = .error .invalidActionsSetId ↔ es = []) ∧
    (getCurrentState now s id = .ok .executed ↔
      ∃ q sender rd, es = [q, .actionsSetExecuted id sender rd]) ∧
    (getCurrentState now s id = .ok .canceled ↔ ∃ q, es = [q, .actionsSetCanceled id]) := by
  rw [getCurrentState_eq_invalid, getCurrentState_eq_executed, getCurrentState_eq_canceled]
  cases h with
  | nothing hid =>
    have hid' : s.actionsSetCounter ≤ id := hid
    simp [hid', Nat.not_lt.mpr hid']
  | queued hid hlive =>
    have hid' : id < s.actionsSetCounter := hid
    have hlive' : (s.actionsSets id).Live := hlive
    simp [hid', hlive'.1, hlive'.2]
  | executed hid he hc =>
    have hid' : id < s.actionsSetCounter := hid
    have he' : (s.actionsSets id).executed = true := he
    have hc' : (s.actionsSets id).canceled = false := hc
    simp [hid', he', hc']
  | canceled hid he hc =>
    have hid' : id < s.actionsSetCounter := hid
    have he' : (s.actionsSets id).executed = false := he
    have hc' : (s.actionsSets id).canceled = true := hc
    simp [hid', he', hc']

/-- The executor's own events about one set, oldest first. -/
def State.history (s : State H X) (id : Nat) : List Event := s.ownLogs.filter (·.concerns id)

section

variable [DecidableEq H] {K : Keccak H} {child : Child X Φ} {this : Address}
  {L : Ledger X Event}

/--
**Every set has one of four histories, and `getCurrentState` tells which.**

No event about it, its queueing alone, its queueing and its execution, or its queueing and its
cancellation; the ids are given out in order, none left out and none twice.  These are the
executor's own events, without what delegatecalled code has logged.
-/
theorem history_of_set (hL : child.Announces L) {own : X} {c : ExecConfig H X Φ}
    (hc : Reachable (executor K child this) (ConstructedWith own) c) (id : Nat) :
    c.world.state.ownLogs.filterMap Event.queuedId = List.range c.world.state.actionsSetCounter ∧
    Tells id (c.world.state.mirror (opens c.stack)) (c.world.state.history id) ∧
    (c.stack = [] → ∀ now,
      (getCurrentState now c.world.state id = .error .invalidActionsSetId ↔
        c.world.state.history id = []) ∧
      (getCurrentState now c.world.state id = .ok .executed ↔
        ∃ q sender rd, c.world.state.history id = [q, .actionsSetExecuted id sender rd]) ∧
      (getCurrentState now c.world.state id = .ok .canceled ↔
        ∃ q, c.world.state.history id = [q, .actionsSetCanceled id])) := by
  obtain ⟨start, es, -, h⟩ := logged_of_reachable hL hc
  obtain ⟨htells, hids⟩ := h.tells id
  refine ⟨hids, htells, fun hempty now => ?_⟩
  rw [hempty, opens_nil] at htells
  exact htells.getCurrentState now

/-- After the queue of the example run one event is told of its set. -/
theorem history_of_set_queued :
    Tells 0 (Example.queued.world.state.mirror (opens Example.queued.stack))
      (Example.queued.world.state.history 0) ∧
    (getCurrentState 1000 Example.queued.world.state 0 = .error .invalidActionsSetId ↔
      Example.queued.world.state.history 0 = []) := by
  obtain ⟨-, htells, hstate⟩ :=
    history_of_set (announces_l2 _) Example.reachable_queued_with 0
  exact ⟨htells, (hstate rfl 1000).1⟩

end

end BridgeExecutor
