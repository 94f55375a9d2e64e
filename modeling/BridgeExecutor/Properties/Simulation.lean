import BridgeExecutor.Certora.Harness
import BridgeExecutor.Properties.Bookkeeping
import BridgeExecutor.Properties.Config

/-!
# The harness and the contracts it stands for

A rule that the prover checks on a harness contract says something about the executor if
`_queue2` does to two actions what `_queue` does.

The last loop of `_queue2` assigns to elements of `withDelegatecalls`, and nothing has given that
array a length: the assignments that would have done so are commented out.
From storage that the prover chooses freely `_queue2` may succeed, from storage that the
constructor leaves behind it never does.

* `Harness.queue2_eq_ok` — when `_queue2` succeeds, in any storage
* `pristine_of_reachable` — a harness contract never holds a set
* `simulates_iff` — so the simulation holds only where `_queue` fails as well
* `stored_keys` — with all five arrays stored, `execute` would clear what `_queue2` sets, and
  `cancel` none of it
-/

namespace BridgeExecutor

open Reentrant BridgeExecutorBase

variable {H X Y Φ Ψ : Type}

/-! ## What the functions of the harness do -/

/-- The keys of two actions in the harness. -/
def Actions2.keys (K : Keccak H) (a : Actions2) (executionTime : UInt256) : List H :=
  (List.finRange 2).map fun i => K.harnessHash (a.targets i) (a.values i) executionTime

namespace Harness

theorem assign_of_le {α : Type} : ∀ {i : Nat} {xs array : List α},
    i + xs.length ≤ array.length →
    assign i xs array = .ok (array.take i ++ (xs ++ array.drop (i + xs.length)))
  | i, [], array, _ => by simp [assign]
  | i, x :: xs, array, h => by
    rw [List.length_cons] at h
    have hi : i < array.length := by omega
    rw [assign, if_pos hi, assign_of_le (by rw [List.length_set]; omega)]
    have hdrop : (array.set i x).drop (i + 1 + xs.length) = array.drop (i + (xs.length + 1)) := by
      rw [List.drop_set_of_lt (by omega), Nat.add_right_comm, Nat.add_assoc]
    have htake : (array.set i x).take (i + 1) = array.take i ++ [x] := by
      rw [List.take_set, List.take_add_one, List.getElem?_eq_getElem hi,
        List.set_append_right _ _ (List.length_take_le _ _), List.length_take,
        Nat.min_eq_left (Nat.le_of_lt hi), Nat.sub_self]
      rfl
    rw [hdrop, htake, List.append_assoc]
    rfl

/-- An array that is too short is found out at its end. -/
theorem assign_of_lt {α : Type} : ∀ {i : Nat} {xs array : List α}, i ≤ array.length →
    array.length < i + xs.length → assign i xs array = .error .panicIndex
  | i, [], array, hle, hlt => absurd hlt (Nat.not_lt.mpr hle)
  | i, x :: xs, array, hle, hlt => by
    rw [List.length_cons] at hlt
    rw [assign]
    by_cases hi : i < array.length
    · rw [if_pos hi]
      exact assign_of_lt (by rw [List.length_set]; omega) (by rw [List.length_set]; omega)
    · exact if_neg hi

theorem executeDelegateCall_self (K : Keccak H) (mock this : Address) (data : List UInt8)
    (s : State H X) :
    executeDelegateCall K mock this this data s =
      (mockTargetCall K mock data s).bind fun s' success => .done s' (success, []) :=
  if_neg (not_not.mpr rfl)

section

variable [DecidableEq H] {K : Keccak H}

theorem queue2Loop_eq_ok {a : Actions2} {t : UInt256} : ∀ {is : List (Fin 2)} {f g : H → Bool},
    queue2Loop K a t is f = .ok g ↔
      Flags.claim (is.map fun i => K.harnessHash (a.targets i) (a.values i) t) f = some g
  | [], f, g => by simp [queue2Loop, Flags.claim]
  | i :: is, f, g => by
    rw [queue2Loop, List.map_cons, Flags.claim]
    by_cases hf : f (K.harnessHash (a.targets i) (a.values i) t) = true
    · simp [hf]
    · simp only [hf, if_false, Bool.false_eq_true]
      exact queue2Loop_eq_ok

/-- The state after a successful `_queue2`. -/
def queued2 (K : Keccak H) (s : State H X) (a : Actions2) (executionTime : UInt256) :
    State H X :=
  { (s.setFlags (Flags.taken (a.keys K executionTime) s.queuedActions)) with
      actionsSetCounter := s.actionsSetCounter + 1 }
    |>.setActionsSet s.actionsSetCounter
      { s.actionsSets s.actionsSetCounter with
        targets := List.ofFn a.targets
        values := List.ofFn a.values
        withDelegatecalls := List.ofFn a.withDelegatecalls ++
          (s.actionsSets s.actionsSetCounter).withDelegatecalls.drop 2
        executionTime }

/-- **When `_queue2` succeeds, and what it writes.**  The slot must have room already. -/
theorem queue2_eq_ok {now : UInt256} {a : Actions2} {s s' : State H X} :
    queue2 K now a s = .ok s' ↔ now.toNat + s.delay.toNat < 2 ^ 256 ∧
      (a.keys K (now + s.delay)).Nodup ∧
      (∀ h ∈ a.keys K (now + s.delay), s.queuedActions h = false) ∧
      2 ≤ (s.actionsSets s.actionsSetCounter).withDelegatecalls.length ∧
      s' = queued2 K s a (now + s.delay) := by
  unfold queue2
  by_cases hsum : now.toNat + s.delay.toNat < 2 ^ 256
  · rw [checkedAdd_of_lt hsum]
    dsimp only
    have hloop : ∀ g, queue2Loop K a (now + s.delay) (List.finRange 2) s.queuedActions = .ok g ↔
        (a.keys K (now + s.delay)).Nodup ∧
        (∀ h ∈ a.keys K (now + s.delay), s.queuedActions h = false) ∧
        g = Flags.taken (a.keys K (now + s.delay)) s.queuedActions := by
      intro g
      rw [queue2Loop_eq_ok, Flags.claim_eq_some]
      rfl
    cases hl : queue2Loop K a (now + s.delay) (List.finRange 2) s.queuedActions with
    | error e =>
      refine ⟨nofun, fun h => ?_⟩
      rw [(hloop _).mpr ⟨h.2.1, h.2.2.1, rfl⟩] at hl
      cases hl
    | ok g =>
      obtain ⟨hnd, hfree, rfl⟩ := (hloop g).mp hl
      dsimp only
      by_cases hlen : 2 ≤ (s.actionsSets s.actionsSetCounter).withDelegatecalls.length
      · rw [assign_of_le (by rw [List.length_ofFn]; omega)]
        exact ⟨fun h => ⟨hsum, hnd, hfree, hlen, (Except.ok.inj h).symm⟩,
          fun h => congrArg Except.ok h.2.2.2.2.symm⟩
      · rw [assign_of_lt (Nat.zero_le _) (by rw [List.length_ofFn]; omega)]
        exact ⟨nofun, fun h => absurd h.2.2.2.1 hlen⟩
  · rw [checkedAdd_of_not_lt hsum]
    exact ⟨nofun, fun h => absurd h.1 hsum⟩

/-- What would succeed but for the length of the array ends with `Panic(0x32)`. -/
theorem queue2_eq_panicIndex {now : UInt256} {a : Actions2} {s : State H X}
    (hsum : now.toNat + s.delay.toNat < 2 ^ 256) (hnd : (a.keys K (now + s.delay)).Nodup)
    (hfree : ∀ h ∈ a.keys K (now + s.delay), s.queuedActions h = false)
    (hlen : (s.actionsSets s.actionsSetCounter).withDelegatecalls.length < 2) :
    queue2 K now a s = .error .panicIndex := by
  have hloop : queue2Loop K a (now + s.delay) (List.finRange 2) s.queuedActions
      = .ok (Flags.taken (a.keys K (now + s.delay)) s.queuedActions) :=
    queue2Loop_eq_ok.mpr (Flags.claim_eq_some.mpr ⟨hnd, hfree, rfl⟩)
  unfold queue2
  rw [checkedAdd_of_lt hsum]
  dsimp only
  rw [hloop]
  dsimp only
  rw [assign_of_lt (Nat.zero_le _) (by rw [List.length_ofFn]; omega)]

end

end Harness

/-! ## No set is ever stored -/

/-- What the constructor leaves behind, up to the parameters. -/
structure State.Pristine (s : State H X) : Prop where
  counter : s.actionsSetCounter = 0
  actionsSets : ∀ id, s.actionsSets id = {}
  queuedActions : ∀ h, s.queuedActions h = false
  config : s.ValidConfig

theorem Constructed.pristine {t : UInt256} {s : State H X} (h : Constructed t s) : s.Pristine :=
  ⟨h.empty.1, h.empty.2.1, h.empty.2.2, h.validConfig⟩

namespace State.Pristine

variable {s : State H X}

theorem setBalance (h : s.Pristine) (b : Nat) : (s.setBalance b).Pristine :=
  ⟨h.counter, h.actionsSets, h.queuedActions, h.config.setBalance b⟩

theorem receive (h : s.Pristine) (this : Address) (msg : Msg) : (s.receive this msg).Pristine := by
  obtain ⟨b, hb⟩ := receive_eq_setBalance s this msg
  rw [hb]
  exact h.setBalance b

theorem requireExecutable (h : s.Pristine) (now : UInt256) (id : Nat) :
    requireExecutable now s id = .error .invalidActionsSetId := by
  have hid : s.actionsSetCounter ≤ id := h.counter ▸ Nat.zero_le id
  rw [BridgeExecutorBase.requireExecutable, requireQueued, (Reports.invalid hid).eq]

theorem not_queued (h : s.Pristine) (now : UInt256) (id : Nat) :
    getCurrentState now s id ≠ .ok .queued := by
  intro hq
  have hid := (getCurrentState_eq_queued.mp hq).1
  rw [h.counter] at hid
  exact Nat.not_lt_zero _ hid

section

variable [DecidableEq H] {K : Keccak H}

/-- **`_queue2` never succeeds on the storage of a new contract.** -/
theorem queue2_ne_ok (h : s.Pristine) (now : UInt256) (a : Actions2) (s' : State H X) :
    Harness.queue2 K now a s ≠ .ok s' := by
  intro hq
  obtain ⟨-, -, -, hlen, -⟩ := Harness.queue2_eq_ok.mp hq
  rw [h.actionsSets] at hlen
  exact absurd hlen (by decide)

variable {child : HarnessChild X Φ} {this : Address}

/-- A function of the harness contract itself, called by somebody else. -/
theorem harnessOwn (h : s.Pristine) {now : UInt256} {msg : Msg} (hmsg : msg.sender ≠ this)
    {f : HarnessFn Φ} {s' : State H X} (hf : harnessOwn K child this now msg s f = .ok s') :
    s'.Pristine := by
  cases f with
  | noDelegateCalls id => exact absurd (onlyThis_eq_ok.mp hf).1 hmsg
  | child f =>
    unfold BridgeExecutor.harnessOwn at hf
    dsimp only at hf
    split at hf
    · cases hf
    · exact absurd hf (h.queue2_ne_ok _ _ _)
    · cases hf
      exact ⟨h.counter, h.actionsSets, h.queuedActions, h.config.congr rfl rfl rfl rfl⟩
    · cases hf
      exact h

/-- An inherited function, called by somebody else. -/
theorem plain (h : s.Pristine) {now : UInt256} {msg : Msg} (hmsg : msg.sender ≠ this)
    {f : Fn Φ} {s' : State H X}
    (hf : plain K (noChild X Φ) this now msg s f = some (.ok s')) : s'.Pristine := by
  cases Writes.of_plain hf with
  | cancel _ hq => exact absurd hq (h.not_queued _ _)
  | receiveFunds => exact h.receive this msg
  | updateGuardian hs => exact absurd hs hmsg
  | updateDelay hs _ => exact absurd hs hmsg
  | updateGracePeriod hs _ => exact absurd hs hmsg
  | updateMinimumDelay hs _ _ => exact absurd hs hmsg
  | updateMaximumDelay hs _ _ => exact absurd hs hmsg
  | queue hh _ _ _ _ => cases hh
  | write hh => cases hh

/-- A message from outside is rejected or leaves a storage of the same kind. -/
theorem external (h : s.Pristine) (K : Keccak H) (child : HarnessChild X Φ) (mock : Address)
    (now : UInt256) {m : Message (HarnessFn Φ)} (hm : m.sender ≠ this) :
    (∃ e, harnessExternal K child mock this now m s = .fail e) ∨
      ∃ s', harnessExternal K child mock this now m s = .done s' () ∧ s'.Pristine := by
  unfold harnessExternal
  cases hf : m.fn with
  | execute id =>
    refine .inl ⟨.invalidActionsSetId, ?_⟩
    simp only [Harness.execute, (h.receive this m.toMsg).requireExecutable]
  | executeDelegateCall target data =>
    refine .inl ⟨.onlyCallableByThis, ?_⟩
    simp only [Harness.executeDelegateCall, if_pos hm, Prog.bind_fail]
  | own f =>
    dsimp only
    cases hr : nonPayable m.toMsg (BridgeExecutor.harnessOwn K child this now m.toMsg s f) with
    | error e => exact .inl ⟨e, rfl⟩
    | ok s' => exact .inr ⟨s', rfl, h.harnessOwn hm (nonPayable_eq_ok.mp hr).2⟩
  | _ =>
    dsimp only
    split
    · exact .inl ⟨.rejected, rfl⟩
    next r hr =>
    cases r with
    | error e => exact .inl ⟨e, rfl⟩
    | ok s' => exact .inr ⟨s', rfl, h.plain hm hr⟩

end

end State.Pristine

section

variable [DecidableEq H] {K : Keccak H} {child : HarnessChild X Φ} {mock this : Address}

/-- No frame is ever open, and the storage is that of a new contract. -/
def Idle (ctx : List (ExecOpen H X (HarnessFn Φ))) (w : ExecWorld H X (HarnessFn Φ)) : Prop :=
  ctx = [] ∧ w.state.Pristine

/-- With no frame open nobody calls in the name of the contract, so every move is one of the
functions that `State.Pristine.external` is about. -/
theorem harness_refines :
    Refines (harness K child mock this) Constructed
      (fun _ ctx w ctx' w' => Idle ctx w → Idle ctx' w') Idle where
  init h := ⟨rfl, h.pristine⟩
  keep hm h := hm h
  call := by
    rintro ctx w m ⟨rfl, hw⟩ hsender
    have hm : m.sender ≠ this := fun hs => hsender hs rfl
    show (harnessExternal K child mock this w.now m w.state).Follows _ _ _ _ _ _ _ _ _ _
    obtain ⟨e, he⟩ | ⟨s', hs', hp⟩ := hw.external K child mock w.now hm
    · rw [he]
      trivial
    · rw [hs']
      exact fun _ => ⟨rfl, hp⟩
  drift := by
    rintro ctx w a s ⟨rfl, hw⟩ hself hd -
    cases hd with
    | balance _ => exact ⟨rfl, hw.setBalance _⟩
    | log => exact absurd rfl (hself rfl)
  advance := fun _ _ h => h

/-- **A harness contract never holds a set**, whatever is called and reverted. -/
theorem pristine_of_reachable {c : ExecConfig H X (HarnessFn Φ)}
    (hc : Reachable (harness K child mock this) Constructed c) : c.world.state.Pristine :=
  (harness_refines.reachable hc).2.2

end

/-! ## The simulation -/

/-- What the harness stores of a set. -/
structure SameSet (a b : ActionsSet) : Prop where
  targets : a.targets = b.targets
  values : a.values = b.values
  withDelegatecalls : a.withDelegatecalls = b.withDelegatecalls
  executionTime : a.executionTime = b.executionTime

/-- The same counter, parameters and live sets. -/
structure SameSituation (s : State H X) (p : State H Y) : Prop where
  counter : s.actionsSetCounter = p.actionsSetCounter
  delay : s.delay = p.delay
  gracePeriod : s.gracePeriod = p.gracePeriod
  minimumDelay : s.minimumDelay = p.minimumDelay
  maximumDelay : s.maximumDelay = p.maximumDelay
  guardian : s.guardian = p.guardian
  live : ∀ id, id < s.actionsSetCounter →
    ((s.actionsSets id).Live ↔ (p.actionsSets id).Live) ∧
    ((s.actionsSets id).Live → SameSet (s.actionsSets id) (p.actionsSets id))

/-- The keys that `cancel` clears for a set. -/
def Keccak.cancelKeys (K : Keccak H) (a : ActionsSet) : List H :=
  K.hashes a.toActions a.executionTime

/-- The keys that `execute` of a harness contract clears for a set. -/
def Keccak.executeKeys (K : Keccak H) (a : ActionsSet) : List H :=
  a.toList.map fun x => K.harnessHash x.target x.value a.executionTime

theorem cancel_flags [DecidableEq H] {K : Keccak H} {now : UInt256} {sender : Address} {id : Nat}
    {s s' : State H X} (h : BridgeExecutorBase.cancel K now sender id s = .ok s') :
    s'.queuedActions = Flags.release (K.cancelKeys (s.actionsSets id)) s.queuedActions := by
  obtain ⟨-, -, -, rfl⟩ := cancel_eq_ok.mp h
  rfl

/-- An action of a harness contract clears one flag and calls the mock, whatever its target is
and whether or not it asks for a delegatecall. -/
theorem executeTransaction_flags [DecidableEq H] (K : Keccak H) (mock this : Address) {a : Action}
    (t : UInt256) {s : State H X} (h : a.value.toNat ≤ s.balance) :
    ∃ k, Harness.executeTransaction K mock this a t s =
      .call (s.setFlags (Function.update s.queuedActions (K.harnessHash a.target a.value t) false))
        ⟨false, mock, 0, Harness.targetCallData K a.calldata.data⟩ k := by
  rw [Harness.executeTransaction, if_neg (Nat.not_lt.mpr h)]
  cases hd : a.withDelegatecall with
  | true =>
    simp only [if_true, Harness.executeDelegateCall_self]
    exact ⟨_, rfl⟩
  | false => exact ⟨_, rfl⟩

/-- `_queue2` on the storage `s` of a harness contract does what `_queue` does on the storage `p`
of an executor, and the flags it sets are cleared with the set. -/
structure Simulates [DecidableEq H] (K : Keccak H) (s : State H X) (p : State H Y)
    (now : UInt256) (a : Actions2) : Prop where
  succeeds : (∃ s', Harness.queue2 K now a s = .ok s') ↔
    ∃ p', queue K now a.toActions p = .ok p'
  stores : ∀ s' p', Harness.queue2 K now a s = .ok s' → queue K now a.toActions p = .ok p' →
    s'.actionsSetCounter = p'.actionsSetCounter ∧
    SameSet (s'.actionsSets s.actionsSetCounter) (p'.actionsSets s.actionsSetCounter)
  flags : ∀ s', Harness.queue2 K now a s = .ok s' → ∀ h,
    (h ∈ K.cancelKeys (s'.actionsSets s.actionsSetCounter) ↔
      s.queuedActions h = false ∧ s'.queuedActions h = true) ∧
    (h ∈ K.executeKeys (s'.actionsSets s.actionsSetCounter) ↔
      s.queuedActions h = false ∧ s'.queuedActions h = true)

theorem toList_toActions (a : Actions2) : a.toActions.toList = [a.action 0, a.action 1] := rfl

theorem wellFormed_toActions (a : Actions2) : a.toActions.WellFormed :=
  ⟨Nat.zero_lt_two, rfl, rfl, rfl, rfl⟩

/-- The constructor takes any parameters that pass its checks. -/
theorem exists_constructed {delay gracePeriod minimumDelay maximumDelay : UInt256}
    (guardian : Address) (own : X) (hgrace : minimumGracePeriod ≤ gracePeriod)
    (hlt : minimumDelay < maximumDelay) (hmin : minimumDelay ≤ delay)
    (hmax : delay ≤ maximumDelay) :
    ∃ p : State H X, (∀ t, Constructed t p) ∧ p.delay = delay ∧ p.gracePeriod = gracePeriod ∧
      p.minimumDelay = minimumDelay ∧ p.maximumDelay = maximumDelay ∧ p.guardian = guardian := by
  have hok : construct (H := H) delay gracePeriod minimumDelay maximumDelay guardian own 0
      = .ok _ := construct_eq_ok.mpr ⟨⟨hgrace, hlt, hmin, hmax⟩, rfl⟩
  exact ⟨_, fun _ => ⟨_, _, _, _, _, _, _, hok⟩, rfl, rfl, rfl, rfl, rfl⟩

section

variable [DecidableEq H] {K : Keccak H}

/-- `_queue` on two actions, where no flag is set. -/
theorem queue_toActions_ok_iff (hK : K.CollisionFree) {p : State H Y}
    (hfree : ∀ h, p.queuedActions h = false) (now : UInt256) (a : Actions2) :
    (∃ p', queue K now a.toActions p = .ok p') ↔
      now.toNat + p.delay.toNat < 2 ^ 256 ∧ a.action 0 ≠ a.action 1 := by
  have hnodup : (K.hashes a.toActions (now + p.delay)).Nodup ↔ a.action 0 ≠ a.action 1 := by
    rw [nodup_hashes_iff hK, toList_toActions]
    simp
  rw [← hnodup]
  constructor
  · rintro ⟨p', hq⟩
    obtain ⟨-, hsum, hnd, -, -⟩ := queue_eq_ok.mp hq
    exact ⟨hsum, hnd⟩
  · rintro ⟨hsum, hnd⟩
    exact ⟨_, queue_eq_ok.mpr ⟨wellFormed_toActions a, hsum, hnd, fun h _ => hfree h, rfl⟩⟩

/-- Where `_queue2` never succeeds it simulates `_queue` exactly where that fails too. -/
theorem simulates_iff_of_pristine (hK : K.CollisionFree) {s : State H X} {p : State H Y}
    (hs : s.Pristine) (hfree : ∀ h, p.queuedActions h = false) (hdelay : s.delay = p.delay)
    {now : UInt256} {a : Actions2} :
    Simulates K s p now a ↔
      2 ^ 256 ≤ now.toNat + s.delay.toNat ∨ a.action 0 = a.action 1 := by
  have hnever := hs.queue2_ne_ok (K := K) now a
  have hqueue := queue_toActions_ok_iff hK hfree now a
  rw [← hdelay] at hqueue
  constructor
  · intro h
    by_contra hnot
    rw [not_or, Nat.not_le] at hnot
    obtain ⟨s', hs'⟩ := h.succeeds.mpr (hqueue.mpr hnot)
    exact hnever s' hs'
  · intro h
    refine ⟨⟨fun ⟨s', hs'⟩ => absurd hs' (hnever s'), fun hp => ?_⟩,
      fun s' _ hs' => absurd hs' (hnever s'), fun s' hs' => absurd hs' (hnever s')⟩
    obtain ⟨hsum, hne⟩ := hqueue.mp hp
    rcases h with h | h
    · exact absurd hsum (Nat.not_lt.mpr h)
    · exact absurd h hne

/-- An executor that has queued nothing has no flag set. -/
theorem queuedActions_of_counter {base : Child Y Ψ} {this : Address} {p : ExecConfig H Y Ψ}
    (hp : Reachable (executor K base this) Constructed p)
    (hcounter : p.world.state.actionsSetCounter = 0) (h : H) :
    p.world.state.queuedActions h = false := by
  refine Bool.eq_false_iff.mpr fun hset => ?_
  obtain ⟨i, ⟨hi, -⟩, -⟩ := ((booked_of_reachable hp).flag h).mp hset
  rw [hcounter] at hi
  exact Nat.not_lt_zero _ hi

/-- Every situation of a harness contract is one of a newly constructed executor. -/
theorem exists_sameSituation {child : HarnessChild X Φ} {mock this : Address}
    {c : ExecConfig H X (HarnessFn Φ)}
    (hc : Reachable (harness K child mock this) Constructed c) :
    ∃ p : State H X, (∀ t, Constructed t p) ∧ SameSituation c.world.state p := by
  have hs := pristine_of_reachable hc
  obtain ⟨hlt, hmin, hmax, hgrace⟩ := hs.config
  obtain ⟨p, hp, hdelay, hgp, hmind, hmaxd, hguardian⟩ :=
    exists_constructed (H := H) c.world.state.guardian c.world.state.own hgrace hlt hmin hmax
  refine ⟨p, hp, hs.counter.trans (hp 0).empty.1.symm, hdelay.symm, hgp.symm, hmind.symm,
    hmaxd.symm, hguardian.symm, fun id hid => ?_⟩
  rw [hs.counter] at hid
  exact absurd hid (Nat.not_lt_zero _)

theorem simulates_iff_of_reachable (hK : K.CollisionFree) {child : HarnessChild X Φ}
    {base : Child Y Ψ} {mock this : Address} {c : ExecConfig H X (HarnessFn Φ)}
    {p : ExecConfig H Y Ψ} (hc : Reachable (harness K child mock this) Constructed c)
    (hp : Reachable (executor K base this) Constructed p)
    (hsame : SameSituation c.world.state p.world.state) (now : UInt256) (a : Actions2) :
    Simulates K c.world.state p.world.state now a ↔
      2 ^ 256 ≤ now.toNat + c.world.state.delay.toNat ∨ a.action 0 = a.action 1 := by
  have hs := pristine_of_reachable hc
  have hcounter : p.world.state.actionsSetCounter = 0 := hsame.counter.symm.trans hs.counter
  exact simulates_iff_of_pristine hK hs (queuedActions_of_counter hp hcounter) hsame.delay

/--
**The harness simulates `_queue` exactly where `_queue` fails.**

`PolygonHarness` and a contract that extends `L2BridgeExecutorHarness` hold no set in any
reachable configuration, so `_queue2` finds an empty array and reverts.
`_queue`, in the same situation, succeeds unless the execution time overflows or the two actions
are the same.
-/
theorem simulates_iff (hK : K.CollisionFree) :
    (∀ (abiDecode2 : Bytes → Option Actions2) (abiDecode : Bytes → Option Actions)
      (mock this : Address) (c : ExecConfig H PolygonStorage (HarnessFn PolygonFn))
      (p : ExecConfig H PolygonStorage PolygonFn),
      Reachable (harness K (polygonHarness abiDecode2) mock this) Constructed c →
      Reachable (executor K (polygonBridgeExecutor abiDecode) this) Constructed p →
      SameSituation c.world.state p.world.state → ∀ now a,
      (Simulates K c.world.state p.world.state now a ↔
        2 ^ 256 ≤ now.toNat + c.world.state.delay.toNat ∨ a.action 0 = a.action 1)) ∧
    (∀ (guard guard' : Msg → L2Storage → Except Error Unit) (mock this : Address)
      (c : ExecConfig H L2Storage (HarnessFn L2HarnessFn)) (p : ExecConfig H L2Storage L2Fn),
      Reachable (harness K (l2BridgeExecutorHarness guard) mock this) Constructed c →
      Reachable (executor K (l2BridgeExecutor guard') this) Constructed p →
      SameSituation c.world.state p.world.state → ∀ now a,
      (Simulates K c.world.state p.world.state now a ↔
        2 ^ 256 ≤ now.toNat + c.world.state.delay.toNat ∨ a.action 0 = a.action 1)) :=
  ⟨fun _ _ _ _ _ _ hc hp hsame now a => simulates_iff_of_reachable hK hc hp hsame now a,
    fun _ _ _ _ _ _ hc hp hsame now a => simulates_iff_of_reachable hK hc hp hsame now a⟩

namespace Example

/-- `PolygonHarness` and `PolygonBridgeExecutor` after the same construction. -/
def polygonStart : State (List UInt8) PolygonStorage :=
  (((((blank ⟨governance, 8⟩ 0).updateDelay 100).updateGracePeriod 600).updateMinimumDelay
    0).updateMaximumDelay 200).updateGuardian 7

theorem constructed_polygonStart (t : UInt256) : Constructed t polygonStart :=
  ⟨100, 600, 0, 200, 7, ⟨governance, 8⟩, 0, rfl⟩

/-- Two calls without data. -/
def callsTo (x y : Address) : Actions2 :=
  ⟨fun i => if i = 0 then x else y, fun _ => 0, fun _ => .empty, fun _ => .empty, fun _ => false⟩

theorem collisionFree_keccak : keccak.CollisionFree :=
  Keccak.collisionFree_of_injective fun _ _ h => h

theorem sameSituation_polygonStart : SameSituation polygonStart polygonStart :=
  ⟨rfl, rfl, rfl, rfl, rfl, rfl, fun _ _ => ⟨Iff.rfl, fun _ => ⟨rfl, rfl, rfl, rfl⟩⟩⟩

end Example

/-- The same action twice: both contracts revert. -/
theorem simulates_iff_twice :
    Simulates Example.keccak Example.polygonStart Example.polygonStart 1000
      (Example.callsTo 5 5) :=
  ((simulates_iff Example.collisionFree_keccak).1 (fun _ => none) (fun _ => none) 0 Example.this
    ⟨⟨1000, Example.polygonStart, []⟩, []⟩ ⟨⟨1000, Example.polygonStart, []⟩, []⟩
    (.init (Example.constructed_polygonStart 1000))
    (.init (Example.constructed_polygonStart 1000)) Example.sameSituation_polygonStart 1000
    (Example.callsTo 5 5)).mpr (.inr rfl)

/-- Two calls to two targets, right after the construction. -/
theorem not_simulates_polygonStart :
    Reachable (harness Example.keccak (polygonHarness fun _ => none) 0 Example.this) Constructed
      ⟨⟨1000, Example.polygonStart, []⟩, []⟩ ∧
    Reachable (executor Example.keccak (polygonBridgeExecutor fun _ => none) Example.this)
      Constructed ⟨⟨1000, Example.polygonStart, []⟩, []⟩ ∧
    SameSituation Example.polygonStart Example.polygonStart ∧
    Harness.queue2 Example.keccak 1000 (Example.callsTo 5 6) Example.polygonStart
      = .error .panicIndex ∧
    (∃ p', queue Example.keccak 1000 (Example.callsTo 5 6).toActions Example.polygonStart
      = .ok p') ∧
    ¬ Simulates Example.keccak Example.polygonStart Example.polygonStart 1000
      (Example.callsTo 5 6) := by
  have hpanic : Harness.queue2 Example.keccak 1000 (Example.callsTo 5 6) Example.polygonStart
      = .error .panicIndex :=
    Harness.queue2_eq_panicIndex (by decide) (by decide +kernel) (fun _ _ => rfl) (by decide)
  have hqueue : ∃ p', queue Example.keccak 1000 (Example.callsTo 5 6).toActions
      Example.polygonStart = .ok p' :=
    (queue_toActions_ok_iff Example.collisionFree_keccak (fun _ => rfl) 1000 _).mpr
      ⟨by decide, by decide⟩
  refine ⟨.init (Example.constructed_polygonStart 1000),
    .init (Example.constructed_polygonStart 1000), Example.sameSituation_polygonStart, hpanic,
    hqueue, fun h => ?_⟩
  obtain ⟨s', hs'⟩ := h.succeeds.mpr hqueue
  exact nomatch hpanic.symm.trans hs'

end

/-! ## The keys, were the arrays stored -/

section

variable {K : Keccak H}

/-- A key of three fields is never a key of six: the preimages have different lengths. -/
theorem harnessHash_ne_actionHash (hinj : ∀ x y, K.hash x = K.hash y → x = y) (a : Action)
    (target : Address) (value t t' : UInt256) :
    K.harnessHash target value t ≠ K.actionHash a t' := by
  intro h
  have hlen := congrArg List.length (hinj _ _ h)
  simp only [abiEncode, List.length_append, Words.length_word] at hlen
  omega

/--
**Of a set with all five arrays `execute` clears the flags that `_queue2` has set, and `cancel`
clears none of them.**
-/
theorem stored_keys (hinj : ∀ x y, K.hash x = K.hash y → x = y) (a : Actions2) (t : UInt256) :
    K.executeKeys ⟨a.toActions, t, false, false⟩ = a.keys K t ∧
    ∀ h ∈ a.keys K t, h ∉ K.cancelKeys ⟨a.toActions, t, false, false⟩ := by
  refine ⟨rfl, fun h hmem hcancel => ?_⟩
  obtain ⟨i, -, rfl⟩ := List.mem_map.mp hmem
  obtain ⟨x, -, hx⟩ := List.mem_map.mp hcancel
  exact harnessHash_ne_actionHash hinj x _ _ _ _ hx.symm

end

end BridgeExecutor
