import BridgeExecutor.Properties.History
import BridgeExecutor.Properties.Polygon

/-!
# Runs of the bridge to Polygon

The four contracts side by side.  Each of them makes the steps of its own machine, called by
whomever it is, and between transactions a message may pass from `FxRoot` to the executor.  A
message that is sent while one of the four is running is no passage: the contracts make their
steps for it, and nothing is said of what becomes of it.

A contract is looked at alone, so more runs are allowed here than there are on the chain:
somebody may call `FxChild` as if it were the state sender, say.  What is shown holds in all of
them, as long as the code that the executor delegatecalls neither writes its storage nor destroys
it.

* `PolygonNetwork.Step` — a step of one contract, or the passage of a message
* `polygonRun_carries` — no passage is lost or overtaken, and each becomes a set of its own
-/

namespace BridgeExecutor

open Reentrant BridgeExecutorBase
open scoped List

variable {H : Type}

/-! ## The network -/

abbrev FxRootConfig :=
  Config Address UInt256 (Request FxRootFn) FxRootStorage OutCall (List UInt8) Revert

abbrev FxChildConfig :=
  Config Address UInt256 (Request FxChildFn) FxChildStorage OutCall (List UInt8) Revert

structure PolygonNetwork (H : Type) where
  fxRoot : FxRootConfig
  mapping : CustomPolygonMapping.MappingConfig
  fxChild : FxChildConfig
  executor : ExecConfig H PolygonStorage PolygonFn

/-- Each contract has served its part of a message. -/
def PolygonNetwork.passed (B : PolygonBridge) (n : PolygonNetwork H) (sender : Address)
    (data message : Bytes) (s : FxRootStorage) (m : MappingStorage) (c : FxChildStorage)
    (e : State H PolygonStorage) : PolygonNetwork H where
  fxRoot := n.fxRoot.served ⟨sender, 0, .sendMessageToChild B.executor data⟩ s
  mapping := n.mapping.served ⟨B.fxRoot, 0, .syncState B.fxChild message⟩ m
  fxChild := n.fxChild.served ⟨B.mapping, 0, .onStateReceive m.counter message⟩ c
  executor := n.executor.served (B.executorMessage 0 m.counter sender data) e

/-- None of the four contracts is running. -/
structure PolygonNetwork.Idle (n : PolygonNetwork H) : Prop where
  fxRoot : n.fxRoot.stack = []
  mapping : n.mapping.stack = []
  fxChild : n.fxChild.stack = []
  executor : n.executor.stack = []

/-- A message that has gone through, sent while none of the four contracts was running: who sent
it, what it says, and the network it was sent in. -/
structure Passage (H : Type) where
  sender : Address
  data : Bytes
  before : PolygonNetwork H

namespace Passage

/-- The number that the state sender gives to the message. -/
def number (p : Passage H) : UInt256 := p.before.mapping.world.state.counter + 1

/-- The set that the executor makes of the message. -/
def id (p : Passage H) : Nat := p.before.executor.world.state.actionsSetCounter

def executionTime (p : Passage H) : UInt256 :=
  p.before.executor.world.now + p.before.executor.world.state.delay

/-- The event of the state sender. -/
def synced (B : PolygonBridge) (p : Passage H) : Option MappingEvent :=
  (toBytes (fxMessageFields.encode (p.sender, B.executor, p.data, ()))).map fun message =>
    .stateSynced p.number B.fxChild message

/-- The event of `FxChild`. -/
def told (B : PolygonBridge) (p : Passage H) : FxChildEvent :=
  .newFxMessage p.sender B.executor p.data

/-- The executor has the set that was sent, under the time it was given then. -/
structure StoredIn (p : Passage H) (e : State H PolygonStorage) : Prop where
  id_lt : p.id < e.actionsSetCounter
  actions : decodeActions p.data = some (e.actionsSets p.id).toActions
  executionTime : (e.actionsSets p.id).executionTime = p.executionTime

end Passage

namespace PolygonBridge

variable [DecidableEq H] (B : PolygonBridge) (K : Keccak H)

/-- One step of one contract, or the passage of one message while none of them is running. -/
inductive Step : PolygonNetwork H → Option (Passage H) → PolygonNetwork H → Prop where
  | fxRoot {n a c} : Reentrant.Step (BridgeExecutor.fxRoot K B.fxRoot) n.fxRoot a c →
      Step n none { n with fxRoot := c }
  | mapping {n a c} : Reentrant.Step (customPolygonMapping K B.mapping) n.mapping a c →
      Step n none { n with mapping := c }
  | fxChild {n a c} : Reentrant.Step (BridgeExecutor.fxChild K B.fxChild) n.fxChild a c →
      Step n none { n with fxChild := c }
  | executor {n a c} : Reentrant.Step (B.polygonExecutor K) n.executor a c →
      Step n none { n with executor := c }
  | passage {n sender data message s m c e} : n.Idle → sender ≠ B.fxRoot →
      toBytes (fxMessageFields.encode (sender, B.executor, data, ())) = some message →
      B.sendMessageToChild K n.executor.world.now sender B.executor data n.fxRoot.world.state
          (n.mapping.world.state, n.fxChild.world.state, n.executor.world.state, ())
        = .ok (s, (), m, c, e, ()) →
      Step n (some ⟨sender, data, n⟩) (n.passed B sender data message s m c e)

/-- A run, and the passages in it, oldest first. -/
inductive Run : PolygonNetwork H → List (Passage H) → PolygonNetwork H → Prop where
  | refl {n} : Run n [] n
  | tail {n ps n' l n''} : Run n ps n' → B.Step K n' l n'' → Run n (ps ++ l.toList) n''

/-- No two neighbours are the same account. -/
structure Apart : Prop where
  fxRoot : B.fxRoot ≠ B.mapping
  mapping : B.mapping ≠ B.fxChild
  fxChild : B.fxChild ≠ B.executor
  fxChild_ne_zero : B.fxChild ≠ 0

/-- `FxRoot` before it is told of `FxChild`. -/
def RootDeployed (_ : UInt256) (s : FxRootStorage) : Prop :=
  ∃ stateSender, s = FxRoot.construct stateSender

def ChildDeployed (_ : UInt256) (s : FxChildStorage) : Prop := s = FxChild.construct

/-- The contracts have been deployed and linked; what else has happened since is open. -/
structure Linked (n : PolygonNetwork H) : Prop where
  idle : n.Idle
  fxRoot : Reachable (BridgeExecutor.fxRoot K B.fxRoot) RootDeployed n.fxRoot
  mapping : Reachable (customPolygonMapping K B.mapping) CustomPolygonMapping.Deployed n.mapping
  fxChild : Reachable (BridgeExecutor.fxChild K B.fxChild) ChildDeployed n.fxChild
  executor : Reachable (B.polygonExecutor K) Constructed n.executor
  wired : B.Wired n.fxRoot.world.state

end PolygonBridge

/-! ## What each contract keeps -/

/-- Messages go on being numbered, and events are not taken back. -/
structure MappingKept (s s' : MappingStorage) : Prop where
  logs : s.logs <+: s'.logs
  counter : s.counter.toNat ≤ s'.counter.toNat

namespace MappingKept

theorem refl (s : MappingStorage) : MappingKept s s := ⟨List.prefix_refl _, Nat.le_refl _⟩

theorem trans {s s' s'' : MappingStorage} (h : MappingKept s s') (h' : MappingKept s' s'') :
    MappingKept s s'' := ⟨h.logs.trans h'.logs, Nat.le_trans h.counter h'.counter⟩

theorem of_move {l : Option (Request MappingFn)} {s s' : MappingStorage}
    (h : MappingMove l s s') : MappingKept s s' := by
  cases l with
  | none =>
    obtain rfl : s' = s := h
    exact refl s'
  | some m =>
    obtain ⟨e, hlogs, haccepts, hview, -⟩ := h
    refine ⟨hlogs ▸ List.prefix_append _ _, ?_⟩
    have hcounter : s'.counter = (mappingLedger.apply s.view e).counter :=
      congrArg MappingView.counter hview
    rw [hcounter]
    cases e with
    | stateSynced id contractAddress data =>
      have hid : id.toNat = s.counter.toNat + 1 := haccepts
      exact hid ▸ Nat.le_succ _
    | _ => exact Nat.le_refl _

end MappingKept

namespace PolygonBridge

section

variable {B : PolygonBridge} {K : Keccak H}

theorem keeps_wired (hB : B.Apart) :
    (BridgeExecutor.fxRoot K B.fxRoot).Keeps RootDeployed B.Wired := by
  intro c c' hc hempty hsteps hwired
  have hkept := (FxRoot.refines K B.fxRoot).local_later FxRootKept.refl FxRootKept.trans
    FxRootKept.of_move hc hempty hsteps
  refine ⟨hkept.stateSender.trans hwired.stateSender, ?_⟩
  rw [hkept.fxChild (hwired.fxChild ▸ hB.fxChild_ne_zero), hwired.fxChild]

theorem keeps_told {es : List FxChildEvent} :
    (BridgeExecutor.fxChild K B.fxChild).Keeps ChildDeployed fun s => es <+ s.logs := by
  intro c c' hc hempty hsteps hes
  have hkept := (FxChild.refines K B.fxChild).local_later FxChildKept.refl FxChildKept.trans
    FxChildKept.of_move hc hempty hsteps
  exact hes.trans hkept.logs.sublist

/-- The state sender has given the messages their numbers. -/
structure Numbered (B : PolygonBridge) (ps : List (Passage H)) (s : MappingStorage) : Prop where
  synced : ps.map (Passage.synced B) <+ s.logs.map some
  number_le : ∀ p ∈ ps, p.number.toNat ≤ s.counter.toNat

theorem keeps_numbered {ps : List (Passage H)} :
    (customPolygonMapping K B.mapping).Keeps CustomPolygonMapping.Deployed (B.Numbered ps) := by
  intro c c' hc hempty hsteps hps
  have hkept := (CustomPolygonMapping.refines K B.mapping).local_later MappingKept.refl
    MappingKept.trans MappingKept.of_move hc hempty hsteps
  constructor
  · exact hps.synced.trans (hkept.logs.map some).sublist
  · intro p hp
    exact Nat.le_trans (hps.number_le p hp) hkept.counter

/-- The number that a message is given. -/
theorem number_eq {p : Passage H} {counter : UInt256}
    (h : counter.toNat = p.before.mapping.world.state.counter.toNat + 1) : p.number = counter := by
  refine BitVec.eq_of_toNat_eq ?_
  rw [Passage.number, BitVec.toNat_add, h]
  exact Nat.mod_eq_of_lt (h ▸ counter.isLt)

/-- The state sender numbers one more message. -/
theorem Numbered.passage {ps : List (Passage H)} {p : Passage H}
    (h : B.Numbered ps p.before.mapping.world.state) {counter : UInt256} {message : Bytes}
    (hcounter : counter.toNat = p.before.mapping.world.state.counter.toNat + 1)
    (hmessage : toBytes (fxMessageFields.encode (p.sender, B.executor, p.data, ()))
      = some message) :
    B.Numbered (ps ++ [p])
      (CustomPolygonMapping.synced p.before.mapping.world.state counter B.fxChild message) := by
  have hsynced : p.synced B = some (.stateSynced counter B.fxChild message) := by
    rw [Passage.synced, hmessage, number_eq hcounter]
    rfl
  constructor
  · rw [List.map_append, List.map_singleton, hsynced]
    show _ <+ (p.before.mapping.world.state.logs ++ [_]).map some
    rw [List.map_append]
    exact h.synced.append (.refl _)
  · intro q hq
    show q.number.toNat ≤ counter.toNat
    rcases List.mem_append.mp hq with hq | hq
    · have := h.number_le q hq
      omega
    · rw [List.mem_singleton.mp hq, number_eq hcounter]

end

variable [DecidableEq H] {B : PolygonBridge} {K : Keccak H}

theorem keeps_storedIn {ps : List (Passage H)} :
    (B.polygonExecutor K).Keeps Constructed fun s => ∀ p ∈ ps, p.StoredIn s := by
  intro c c' hc hempty hsteps hps p hp
  have hevolves := (later_of_steps hc hempty hsteps).evolves
  obtain ⟨hid, hactions, htime⟩ := hps p hp
  refine ⟨Nat.lt_of_lt_of_le hid hevolves.counter, ?_, ?_⟩
  · rw [hevolves.actions _ hid, hactions]
  · rw [hevolves.executionTime _ hid, htime]

/-! ## The invariant -/

/-- The network is past the messages `ps`. -/
structure Carried (B : PolygonBridge) (K : Keccak H) (ps : List (Passage H))
    (n : PolygonNetwork H) : Prop where
  fxRoot : (BridgeExecutor.fxRoot K B.fxRoot).Since RootDeployed B.Wired n.fxRoot
  mapping : (customPolygonMapping K B.mapping).Since CustomPolygonMapping.Deployed
    (B.Numbered ps) n.mapping
  fxChild : (BridgeExecutor.fxChild K B.fxChild).Since ChildDeployed
    (fun s => ps.map (Passage.told B) <+ s.logs) n.fxChild
  executor : (B.polygonExecutor K).Since Constructed (fun s => ∀ p ∈ ps, p.StoredIn s) n.executor
  ordered : ps.Pairwise fun p q => p.id < q.id ∧ p.number.toNat < q.number.toNat

theorem Linked.carried {n : PolygonNetwork H} (h : B.Linked K n) : B.Carried K [] n where
  fxRoot := .of_idle h.fxRoot h.idle.fxRoot h.wired
  mapping := .of_idle h.mapping h.idle.mapping ⟨List.nil_sublist _, nofun⟩
  fxChild := .of_idle h.fxChild h.idle.fxChild (List.nil_sublist _)
  executor := .of_idle h.executor h.idle.executor nofun
  ordered := .nil

/-- The executor stores what it has taken. -/
theorem Takes.storedIn {now : UInt256} {sender : Address} {data : Bytes}
    {e e' : State H PolygonStorage} (h : B.Takes K now sender data e e')
    (hfree : e.actionsSets e.actionsSetCounter = {}) {n : PolygonNetwork H}
    (hn : n.executor.world.state = e) (hnow : n.executor.world.now = now) :
    (Passage.mk sender data n).StoredIn e' := by
  obtain ⟨a, ha, hq⟩ := h.queued
  obtain ⟨-, -, -, -, rfl⟩ := queue_eq_ok.mp hq
  subst hn hnow
  have hslot := State.queued_actionsSets_self (K := K) hfree a
    (n.executor.world.now + n.executor.world.state.delay)
  refine ⟨Nat.lt_succ_self _, ?_, ?_⟩
  · exact ha.trans (congrArg (some ∘ ActionsSet.toActions) hslot).symm
  · exact congrArg ActionsSet.executionTime hslot

/-- A call that has gone through, on a chain with a time of its own. -/
theorem serves_of_sendMessageToChild {now : UInt256} {sender receiver : Address} {data : Bytes}
    {s s' : FxRootStorage} {w w' : MappingStorage × FxChildStorage × State H PolygonStorage × Unit}
    (h : B.sendMessageToChild K now sender receiver data s w = .ok (s', (), w')) (t : UInt256) :
    (BridgeExecutor.fxRoot K B.fxRoot).Serves t ⟨sender, 0, .sendMessageToChild receiver data⟩
      s s' := by
  have hentry (t : UInt256) : (BridgeExecutor.fxRoot K B.fxRoot).entry t
      ⟨sender, 0, .sendMessageToChild receiver data⟩ s
      = FxRoot.sendMessageToChild K sender receiver data s := bridgeContract_entry ..
  have hrun : ((BridgeExecutor.fxRoot K B.fxRoot).entry t
      ⟨sender, 0, .sendMessageToChild receiver data⟩ s).run (fun _ => B.mappingAnswers K now) w
        = .ok (s', (), w') := by
    rw [sendMessageToChild, hentry] at h
    rw [hentry, h]
  exact .of_run (fun _ _ => rfl) hrun

/-- One more message. -/
theorem Carried.passage (hK : K.FourBytes) (hB : B.Apart) {ps : List (Passage H)}
    {n : PolygonNetwork H} (h : B.Carried K ps n) (hidle : n.Idle) {sender : Address}
    {data message : Bytes} {s : FxRootStorage} {m : MappingStorage} {c : FxChildStorage}
    {e : State H PolygonStorage} (hsender : sender ≠ B.fxRoot)
    (hmessage : toBytes (fxMessageFields.encode (sender, B.executor, data, ())) = some message)
    (hrun : B.sendMessageToChild K n.executor.world.now sender B.executor data
        n.fxRoot.world.state
        (n.mapping.world.state, n.fxChild.world.state, n.executor.world.state, ())
      = .ok (s, (), m, c, e, ())) :
    B.Carried K (ps ++ [⟨sender, data, n⟩]) (n.passed B sender data message s m c e) := by
  have hwired := h.fxRoot.holds (keeps_wired hB)
  obtain ⟨rfl, hdelivers⟩ := (sendMessageToChild_eq hK hwired).mp hrun
  have hdata := toBytes_eq_some.mp hmessage
  obtain ⟨hmapping, hchild, hexecutor⟩ := hdelivers.serves hdata
  have hfree := (stored_of_reachable h.executor.reachable).free _ (Nat.le_refl _)
  have hnumbered := h.mapping.holds keeps_numbered
  have hstored := h.executor.holds keeps_storedIn
  obtain ⟨counter, message', hcounter, hdata', rfl⟩ := hdelivers.synced
  obtain rfl : message' = message := Bytes.ext (hdata'.trans hdata.symm)
  constructor
  case fxRoot =>
    exact h.fxRoot.serve (keeps_wired hB) hidle.fxRoot (serves_of_sendMessageToChild hrun _) rfl
      hsender fun h => h
  case mapping =>
    refine h.mapping.serve keeps_numbered hidle.mapping (hmapping _) rfl hB.fxRoot fun _ => ?_
    exact hnumbered.passage (p := ⟨sender, data, n⟩) hcounter hmessage
  case fxChild =>
    refine h.fxChild.serve keeps_told hidle.fxChild (hchild _) rfl hB.mapping fun _ => ?_
    rw [hdelivers.told, List.map_append]
    exact (h.fxChild.holds keeps_told).append (.refl _)
  case executor =>
    refine h.executor.serve keeps_storedIn hidle.executor hexecutor rfl hB.fxChild ?_
    intro hps p hp
    rcases List.mem_append.mp hp with hp | hp
    · exact hps p hp
    · rw [List.mem_singleton.mp hp]
      exact hdelivers.takes.storedIn hfree rfl rfl
  case ordered =>
    refine List.pairwise_append.mpr ⟨h.ordered, List.pairwise_singleton .., ?_⟩
    intro p hp q hq
    obtain rfl := List.mem_singleton.mp hq
    rw [number_eq (p := ⟨sender, data, n⟩) hcounter, hcounter]
    exact ⟨(hstored p hp).id_lt, Nat.lt_succ_of_le (hnumbered.number_le p hp)⟩

/-- **What a step of the network preserves.** -/
theorem Carried.step (hK : K.FourBytes) (hB : B.Apart) {ps : List (Passage H)}
    {n n' : PolygonNetwork H} {l : Option (Passage H)} (h : B.Carried K ps n)
    (hs : B.Step K n l n') : B.Carried K (ps ++ l.toList) n' := by
  cases hs with
  | fxRoot hs =>
    rw [Option.toList_none, List.append_nil]
    exact { h with fxRoot := h.fxRoot.step hs }
  | mapping hs =>
    rw [Option.toList_none, List.append_nil]
    exact { h with mapping := h.mapping.step hs }
  | fxChild hs =>
    rw [Option.toList_none, List.append_nil]
    exact { h with fxChild := h.fxChild.step hs }
  | executor hs =>
    rw [Option.toList_none, List.append_nil]
    exact { h with executor := h.executor.step hs }
  | passage hidle hsender hmessage hrun => exact h.passage hK hB hidle hsender hmessage hrun

/-- The run lemma of `Carried.step`. -/
theorem Run.carried (hK : K.FourBytes) (hB : B.Apart) {ps : List (Passage H)}
    {n n' : PolygonNetwork H} (hrun : B.Run K n ps n') (hlinked : B.Linked K n) :
    B.Carried K ps n' := by
  induction hrun with
  | refl => exact hlinked.carried
  | tail _ hs ih => exact ih.step hK hB hs

end PolygonBridge

open PolygonBridge in
/--
**No passage is lost or overtaken, and each becomes a set of its own.**

The passages are the messages that were sent while none of the four contracts was running.
Whatever the four are made to do before, between and after them: the events of the passages are
there in the order in which they were sent, their numbers and the ids of their sets increase, and
each set is still stored as it was sent, under the time it was given.  Of messages that are sent
from within a call nothing is said but that they do not disturb this.
-/
theorem polygonRun_carries [DecidableEq H] {B : PolygonBridge} {K : Keccak H} (hK : K.FourBytes)
    (hB : B.Apart) {ps : List (Passage H)} {n n' : PolygonNetwork H} (hlinked : B.Linked K n)
    (hrun : B.Run K n ps n') :
    ps.map (Passage.synced B) <+ n'.mapping.world.state.logs.map some ∧
    ps.map (Passage.told B) <+ n'.fxChild.world.state.logs ∧
    (ps.Pairwise fun p q => p.id < q.id ∧ p.number.toNat < q.number.toNat) ∧
    ∀ p ∈ ps, p.StoredIn n'.executor.world.state := by
  have hcarried := hrun.carried hK hB hlinked
  exact ⟨(hcarried.mapping.holds keeps_numbered).synced, hcarried.fxChild.holds keeps_told,
    hcarried.ordered, hcarried.executor.holds keeps_storedIn⟩

/-! ## An example run

The contracts are linked, and governance sends its set.
-/

namespace Example

def setFxChildRequest : Request FxRootFn := ⟨8, 0, .setFxChild 3⟩

def linkedNetwork : PolygonNetwork (List UInt8) where
  fxRoot := ⟨((World.mk 1000 (FxRoot.construct 2) []).record setFxChildRequest).withState
    linkedRoot, []⟩
  mapping := ⟨registeredWorld, []⟩
  fxChild := ⟨⟨1000, FxChild.construct, []⟩, []⟩
  executor := ⟨⟨1000, linkedExecutor, []⟩, []⟩

def passage : Passage (List UInt8) := ⟨governance, encodedActions, linkedNetwork⟩

def passedNetwork : PolygonNetwork (List UInt8) :=
  linkedNetwork.passed polygonBridge governance encodedActions encodedMessage linkedRoot
    (CustomPolygonMapping.synced registered 1 3 encodedMessage)
    (FxChild.told FxChild.construct governance this encodedActions) linkedExecutor'

theorem linked_linkedNetwork : polygonBridge.Linked paddedKeccak linkedNetwork := by
  have hroot : (fxRoot paddedKeccak 1).entry 1000 setFxChildRequest (FxRoot.construct 2)
      = .done linkedRoot () := rfl
  have hmapping : (customPolygonMapping paddedKeccak 2).entry 1000 registerRequest
      (CustomPolygonMapping.construct 9) = .done registered () := rfl
  refine ⟨⟨rfl, rfl, rfl, rfl⟩, ?_, ?_, .init rfl, .init ⟨100, 600, 0, 200, 7, _, 0, rfl⟩, rfl, rfl⟩
  · exact .step (.init ⟨2, rfl⟩) (.callReturns (show (8 : Address) ≠ 1 by decide) hroot)
  · exact .step (.init ⟨9, rfl⟩) (.callReturns (show (9 : Address) ≠ 2 by decide) hmapping)

theorem run_linkedNetwork :
    polygonBridge.Run paddedKeccak linkedNetwork [passage] passedNetwork := by
  have hdelivers : polygonBridge.Delivers paddedKeccak 1000 governance encodedActions registered
      (CustomPolygonMapping.synced registered 1 3 encodedMessage) FxChild.construct
      (FxChild.told FxChild.construct governance this encodedActions) linkedExecutor
      linkedExecutor' :=
    ⟨rfl, ⟨1, encodedMessage, rfl, encodedMessage_data, rfl⟩, rfl, takes_encodedActions⟩
  have hsent := (PolygonBridge.sendMessageToChild_eq fourBytes_paddedKeccak (B := polygonBridge)
    (s := linkedRoot) ⟨rfl, rfl⟩).mpr ⟨rfl, hdelivers⟩
  have hmessage : toBytes (fxMessageFields.encode
      (governance, polygonBridge.executor, encodedActions, ())) = some encodedMessage :=
    toBytes_eq_some.mpr encodedMessage_data
  have hstep : polygonBridge.Step paddedKeccak linkedNetwork (some passage) passedNetwork :=
    .passage ⟨rfl, rfl, rfl, rfl⟩ (show governance ≠ 1 by decide) hmessage hsent
  exact .tail .refl hstep

end Example

/-- The executor stores the set of governance. -/
theorem polygonRun_carries_passage :
    Example.passage.StoredIn Example.passedNetwork.executor.world.state :=
  (polygonRun_carries Example.fourBytes_paddedKeccak ⟨by decide, by decide, by decide, by decide⟩
    Example.linked_linkedNetwork Example.run_linkedNetwork).2.2.2 _ (List.mem_singleton_self _)

end BridgeExecutor
