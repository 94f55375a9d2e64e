import BridgeExecutor.PolygonBridge
import BridgeExecutor.Properties.Executing
import BridgeExecutor.Properties.Mapping

/-!
# Messages from Ethereum to Polygon

`FxRoot` and `FxChild` are told about each other once, by whoever comes first.  From then on a
message that is sent through `FxRoot` is either queued, as it was encoded, or the whole call
reverts.  `FxChild` does not ask who calls it, and anybody can have a set queued in the name of
the sender on Ethereum.

* `fxPortal_wired_once` — what was set is never replaced
* `sendMessageToChild_delivers` — from `FxRoot` to the queue of the executor
* `onStateReceive_forged` — what a caller of `FxChild` can do
-/

namespace BridgeExecutor

open Reentrant BridgeExecutorBase

variable {H : Type} {K : Keccak H}

/-! ## The two ends of the portal -/

/-- The state sender is fixed, and `fxChild` is written while it is zero. -/
structure FxRootKept (s s' : FxRootStorage) : Prop where
  stateSender : s'.stateSender = s.stateSender
  fxChild : s.fxChild ≠ 0 → s'.fxChild = s.fxChild

/-- `fxRoot` is written while it is zero, and events are not taken back. -/
structure FxChildKept (s s' : FxChildStorage) : Prop where
  fxRoot : s.fxRoot ≠ 0 → s'.fxRoot = s.fxRoot
  logs : s.logs <+: s'.logs

def FxRootMove : Option (Request FxRootFn) → FxRootStorage → FxRootStorage → Prop
  | none, s, s' => s' = s
  | some _, s, s' => FxRootKept s s'

def FxChildMove : Option (Request FxChildFn) → FxChildStorage → FxChildStorage → Prop
  | none, s, s' => s' = s
  | some _, s, s' => FxChildKept s s'

namespace FxRootKept

theorem refl (s : FxRootStorage) : FxRootKept s s := ⟨rfl, fun _ => rfl⟩

theorem trans {s s' s'' : FxRootStorage} (h : FxRootKept s s') (h' : FxRootKept s' s'') :
    FxRootKept s s'' where
  stateSender := h'.stateSender.trans h.stateSender
  fxChild hne := by
    have heq := h.fxChild hne
    rw [h'.fxChild (heq ▸ hne), heq]

theorem of_move {l : Option (Request FxRootFn)} {s s' : FxRootStorage} (h : FxRootMove l s s') :
    FxRootKept s s' := by
  cases l with
  | none =>
    obtain rfl : s' = s := h
    exact refl s'
  | some m => exact h

end FxRootKept

namespace FxChildKept

theorem refl (s : FxChildStorage) : FxChildKept s s := ⟨fun _ => rfl, List.prefix_refl _⟩

theorem trans {s s' s'' : FxChildStorage} (h : FxChildKept s s') (h' : FxChildKept s' s'') :
    FxChildKept s s'' where
  fxRoot hne := by
    have heq := h.fxRoot hne
    rw [h'.fxRoot (heq ▸ hne), heq]
  logs := h.logs.trans h'.logs

theorem of_move {l : Option (Request FxChildFn)} {s s' : FxChildStorage}
    (h : FxChildMove l s s') : FxChildKept s s' := by
  cases l with
  | none =>
    obtain rfl : s' = s := h
    exact refl s'
  | some m => exact h

end FxChildKept

/-- A call whose failure is passed on ends in the state in which it was made. -/
theorem callOut_respects {σ Φ : Type} {this : Address}
    {entry : Address → Φ → σ → BridgeProgram σ} {R : Option (Request Φ) → σ → σ → Prop}
    {m : Request Φ} {s s' : σ} {target : Address} {callData : List UInt8}
    (hmove : R (some m) s s') (hrefl : ∀ s, R none s s) :
    (callOut s' target callData).Respects (bridgeContract OutCall.target this entry) R (some m)
      s := by
  refine ⟨hmove, hrefl s', fun s'' ok d => ?_⟩
  cases ok with
  | true => exact hrefl s''
  | false => trivial

theorem FxRoot.refines (K : Keccak H) (this : Address) {Init : UInt256 → FxRootStorage → Prop} :
    Refines (fxRoot K this) Init (Locally FxRootMove) fun _ _ => True := by
  refine bridge_refines (fun m s => ?_) fun _ => rfl
  cases hf : m.fn with
  | setFxChild fxChild =>
    show Prog.Respects _ _ (setFxChild fxChild s) _ _
    unfold setFxChild
    split
    · next hzero => exact ⟨rfl, fun hne => absurd hzero hne⟩
    · trivial
  | sendMessageToChild receiver data =>
    show Prog.Respects _ _ (sendMessageToChild K m.sender receiver data s) _ _
    unfold sendMessageToChild
    split
    · trivial
    · exact callOut_respects (FxRootKept.refl s) fun _ => rfl

theorem FxChild.refines (K : Keccak H) (this : Address) {Init : UInt256 → FxChildStorage → Prop} :
    Refines (fxChild K this) Init (Locally FxChildMove) fun _ _ => True := by
  refine bridge_refines (fun m s => ?_) fun _ => rfl
  cases hf : m.fn with
  | setFxRoot fxRoot =>
    show Prog.Respects _ _ (setFxRoot fxRoot s) _ _
    unfold setFxRoot
    split
    · next hzero => exact ⟨fun hne => absurd hzero hne, List.prefix_refl _⟩
    · trivial
  | onStateReceive stateId data =>
    show Prog.Respects _ _ (onStateReceive K stateId data s) _ _
    unfold onStateReceive
    split
    · trivial
    · exact callOut_respects ⟨fun _ => rfl, List.prefix_append _ _⟩ fun _ => rfl

/--
**What was set between two transactions is never replaced, and no event is lost.**

The calls that `sendMessageToChild` and `onStateReceive` make in between may re-enter either
contract as they like.
-/
theorem fxPortal_wired_once {K : Keccak H} {root child : Address}
    {InitRoot : UInt256 → FxRootStorage → Prop} {InitChild : UInt256 → FxChildStorage → Prop} :
    (∀ c c' : Config Address UInt256 (Request FxRootFn) FxRootStorage OutCall (List UInt8) Revert,
      Reachable (fxRoot K root) InitRoot c → c.stack = [] → Steps (fxRoot K root) c c' →
      FxRootKept c.world.state c'.world.state) ∧
    ∀ c c' : Config Address UInt256 (Request FxChildFn) FxChildStorage OutCall (List UInt8) Revert,
      Reachable (fxChild K child) InitChild c → c.stack = [] → Steps (fxChild K child) c c' →
      FxChildKept c.world.state c'.world.state := by
  constructor
  · intro c c' hc hempty hsteps
    exact (FxRoot.refines K root).local_later FxRootKept.refl FxRootKept.trans
      FxRootKept.of_move hc hempty hsteps
  · intro c c' hc hempty hsteps
    exact (FxChild.refines K child).local_later FxChildKept.refl FxChildKept.trans
      FxChildKept.of_move hc hempty hsteps

/-! ## From one end to the other -/

namespace FxChild

/-- `FxChild` after a message. -/
def told (c : FxChildStorage) (sender receiver : Address) (data : Bytes) : FxChildStorage :=
  { c with logs := c.logs ++ [.newFxMessage sender receiver data] }

/-- `FxChild` hands on what it is given, whoever calls it. -/
theorem entry_onStateReceive {child caller : Address} {now stateId : UInt256}
    {sender receiver : Address} {data message : Bytes}
    (hmessage : message.data = fxMessageFields.encode (sender, receiver, data, ()))
    (c : FxChildStorage) :
    (fxChild K child).entry now ⟨caller, 0, .onStateReceive stateId message⟩ c
      = callOut (told c sender receiver data) receiver
          ((processMessageFromRootMethod K).callData (stateId, sender, data, ())) := by
  refine (bridgeContract_entry ..).trans ?_
  show onStateReceive K stateId message c = _
  rw [onStateReceive, decode_fxMessage hmessage]
  rfl

end FxChild

namespace PolygonBridge

variable [DecidableEq H] {B : PolygonBridge} {now : UInt256}

/-- The executor takes the message. -/
structure Takes (B : PolygonBridge) (K : Keccak H) (now : UInt256) (sender : Address) (data : Bytes)
    (e e' : State H PolygonStorage) : Prop where
  fxChild : B.fxChild = e.own.fxChild
  fxRootSender : sender = e.own.fxRootSender
  queued : ∃ a, decodeActions data = some a ∧ queue K now a e = .ok e'

/-- The executor queues what the sender on Ethereum has sent through `FxChild`. -/
theorem own_processMessageFromRoot {msg : Msg} (hmsg : msg.sender = B.fxChild)
    {stateId : UInt256} {sender : Address} {data : Bytes} {e e' : State H PolygonStorage} :
    own K (polygonBridgeExecutor decodeActions) B.executor now msg
        (.processMessageFromRoot stateId sender data) e = .ok e' ↔
      B.Takes K now sender data e e' := by
  constructor
  · intro h
    unfold own polygonBridgeExecutor at h
    dsimp only at h
    rw [hmsg] at h
    by_cases hchild : B.fxChild = e.own.fxChild
    · by_cases hroot : sender = e.own.fxRootSender
      · cases ha : decodeActions data with
        | none => simp [hchild, hroot, ha] at h
        | some a => exact ⟨hchild, hroot, a, ha, by simpa [hchild, hroot, ha] using h⟩
      · simp [hchild, hroot] at h
    · simp [hchild] at h
  · rintro ⟨hchild, hroot, a, ha, hq⟩
    unfold own polygonBridgeExecutor
    dsimp only
    rw [hmsg, ha]
    simpa [hchild, hroot] using hq

/-- The call of `FxChild`, at the executor. -/
theorem executorAnswers_eq (hK : K.FourBytes) {stateId : UInt256} {sender : Address} {data : Bytes}
    {e e' : State H PolygonStorage} :
    (∃ d, B.executorAnswers K now ⟨false, B.executor, 0,
        (processMessageFromRootMethod K).callData (stateId, sender, data, ())⟩ (e, ())
        = (true, d, e', ())) ↔ B.Takes K now sender data e e' := by
  have hentry : external K (polygonBridgeExecutor decodeActions) B.executor now
      (B.executorMessage 0 stateId sender data) e
      = .ofExcept (nonPayable (B.executorMessage 0 stateId sender data).toMsg
        (own K (polygonBridgeExecutor decodeActions) B.executor now
          (B.executorMessage 0 stateId sender data).toMsg
          (.processMessageFromRoot stateId sender data) e)) := rfl
  rw [executorAnswers, answers_eq (decode_processMessageFromRoot hK _ _ _)]
  dsimp only
  rw [hentry, Prog.run_ofExcept, nonPayable_eq_ok, own_processMessageFromRoot rfl]
  exact ⟨fun h => h.1.2, fun h => ⟨⟨rfl, h⟩, rfl⟩⟩

/-- A message for the executor, in a call of `FxChild` by anybody. -/
theorem onStateReceive_eq (hK : K.FourBytes) {caller : Address} {stateId : UInt256}
    {sender : Address} {data message : Bytes}
    (hmessage : message.data = fxMessageFields.encode (sender, B.executor, data, ()))
    {c c' : FxChildStorage} {e e' : State H PolygonStorage} :
    B.onStateReceive K now caller stateId message c (e, ()) = .ok (c', (), e', ()) ↔
      c' = FxChild.told c sender B.executor data ∧ B.Takes K now sender data e e' := by
  rw [onStateReceive, FxChild.entry_onStateReceive hmessage, callOut, run_passOn, executorAnswers_eq hK]

/-- The call of the state sender, at `FxChild`. -/
theorem fxChildAnswers_eq (hK : K.FourBytes) {stateId : UInt256} {sender : Address}
    {data message : Bytes}
    (hmessage : message.data = fxMessageFields.encode (sender, B.executor, data, ()))
    {c c' : FxChildStorage} {e e' : State H PolygonStorage} :
    (∃ d, B.fxChildAnswers K now ⟨false, B.fxChild, 0,
        (onStateReceiveMethod K).callData (stateId, message, ())⟩ (c, e, ())
        = (true, d, c', e', ())) ↔
      c' = FxChild.told c sender B.executor data ∧ B.Takes K now sender data e e' := by
  rw [fxChildAnswers, answers_eq (decode_onStateReceive hK _ _)]
  exact onStateReceive_eq hK hmessage

/-- What a message does to the contracts behind `FxRoot` when it is delivered. -/
structure Delivers (B : PolygonBridge) (K : Keccak H) (now : UInt256) (sender : Address)
    (data : Bytes) (m m' : MappingStorage) (c c' : FxChildStorage) (e e' : State H PolygonStorage) :
    Prop where
  registered : m.registrations B.fxChild = B.fxRoot
  synced : ∃ counter message, counter.toNat = m.counter.toNat + 1 ∧
    message.data = fxMessageFields.encode (sender, B.executor, data, ()) ∧
    m' = CustomPolygonMapping.synced m counter B.fxChild message
  told : c' = FxChild.told c sender B.executor data
  takes : B.Takes K now sender data e e'

/-- The call of `FxRoot`, at the state sender. -/
theorem mappingAnswers_eq (hK : K.FourBytes) {sender : Address} {data message : Bytes}
    (hmessage : message.data = fxMessageFields.encode (sender, B.executor, data, ()))
    {m m' : MappingStorage} {c c' : FxChildStorage} {e e' : State H PolygonStorage} :
    (∃ d, B.mappingAnswers K now ⟨false, B.mapping, 0,
        (syncStateMethod K).callData (B.fxChild, message, ())⟩ (m, c, e, ())
        = (true, d, m', c', e', ())) ↔ B.Delivers K now sender data m m' c c' e e' := by
  have hcall (counter : UInt256) : CustomPolygonMapping.syncCall K B.fxChild counter message
    = ⟨false, B.fxChild, 0, (onStateReceiveMethod K).callData (counter, message, ())⟩ := rfl
  rw [mappingAnswers, answers_eq (decode_syncState hK _ _)]
  dsimp only
  rw [CustomPolygonMapping.entry_syncState, CustomPolygonMapping.run_syncState]
  constructor
  · rintro ⟨hreg, counter, hcounter, hm, hq⟩
    rw [hcall, fxChildAnswers_eq hK hmessage] at hq
    exact ⟨hreg, ⟨counter, message, hcounter, hmessage, hm⟩, hq.1, hq.2⟩
  · rintro ⟨hreg, ⟨counter, message', hcounter, hmessage', hm⟩, hc, he⟩
    obtain rfl : message' = message := Bytes.ext (hmessage'.trans hmessage.symm)
    refine ⟨hreg, counter, hcounter, hm, ?_⟩
    rw [hcall, fxChildAnswers_eq hK hmessage]
    exact ⟨hc, he⟩

/-- `sendMessageToChild` against the contracts behind it. -/
theorem sendMessageToChild_eq (hK : K.FourBytes) {s s' : FxRootStorage} (hs : B.Wired s)
    {sender : Address} {data : Bytes} {m m' : MappingStorage} {c c' : FxChildStorage}
    {e e' : State H PolygonStorage} :
    B.sendMessageToChild K now sender B.executor data s (m, c, e, ())
        = .ok (s', (), m', c', e', ()) ↔
      s' = s ∧ B.Delivers K now sender data m m' c c' e e' := by
  have hentry : (BridgeExecutor.fxRoot K B.fxRoot).entry now
      ⟨sender, 0, .sendMessageToChild B.executor data⟩ s
      = FxRoot.sendMessageToChild K sender B.executor data s := bridgeContract_entry ..
  rw [sendMessageToChild, hentry, FxRoot.sendMessageToChild]
  cases hbytes : toBytes (fxMessageFields.encode (sender, B.executor, data, ())) with
  | none =>
    refine ⟨nofun, ?_⟩
    rintro ⟨-, -, ⟨counter, message, -, hmessage, -⟩, -, -⟩
    rw [toBytes_eq_some.mpr hmessage] at hbytes
    cases hbytes
  | some message =>
    have hmessage := toBytes_eq_some.mp hbytes
    dsimp only
    rw [callOut, run_passOn, hs.stateSender, hs.fxChild]
    exact and_congr_right fun _ => mappingAnswers_eq hK hmessage

/-- What `Takes` says of a message that was encoded for the executor. -/
theorem takes_encode {a : Actions} {data : Bytes} (hdata : data.data = a.encode)
    {sender : Address} {e e' : State H PolygonStorage} :
    B.Takes K now sender data e e' ↔
      B.fxChild = e.own.fxChild ∧ sender = e.own.fxRootSender ∧ queue K now a e = .ok e' := by
  have hread : decodeActions data = some a :=
    decode_encode_actions (hdata.trans (List.append_nil _).symm)
  constructor
  · rintro ⟨hchild, hroot, a', ha', hq⟩
    rw [hread] at ha'
    cases ha'
    exact ⟨hchild, hroot, hq⟩
  · rintro ⟨hchild, hroot, hq⟩
    exact ⟨hchild, hroot, a, hread, hq⟩

/-- The executor of the bridge among all other code. -/
abbrev polygonExecutor (B : PolygonBridge) (K : Keccak H) :
    Contract Address UInt256 (Message PolygonFn) (State H PolygonStorage) OutCall (List UInt8)
      Error :=
  BridgeExecutor.executor K (polygonBridgeExecutor decodeActions) B.executor

theorem Takes.serves {sender : Address} {data : Bytes} {e e' : State H PolygonStorage}
    (h : B.Takes K now sender data e e') (stateId : UInt256) :
    (B.polygonExecutor K).Serves now (B.executorMessage 0 stateId sender data) e e' := by
  refine .of_done ?_
  show Prog.ofExcept (nonPayable (B.executorMessage 0 stateId sender data).toMsg
    (own K (polygonBridgeExecutor decodeActions) B.executor now
      (B.executorMessage 0 stateId sender data).toMsg
      (.processMessageFromRoot stateId sender data) e)) = _
  rw [nonPayable_eq_ok.mpr ⟨rfl, (own_processMessageFromRoot rfl).mpr h⟩]
  rfl

/-- Each contract behind `FxRoot` does its part by itself, on a chain with a time of its own. -/
theorem Delivers.serves {sender : Address} {data : Bytes}
    {m m' : MappingStorage} {c c' : FxChildStorage} {e e' : State H PolygonStorage}
    (h : B.Delivers K now sender data m m' c c' e e') {message : Bytes}
    (hmessage : message.data = fxMessageFields.encode (sender, B.executor, data, ())) :
    (∀ t, (customPolygonMapping K B.mapping).Serves t
      ⟨B.fxRoot, 0, .syncState B.fxChild message⟩ m m') ∧
    (∀ t, (BridgeExecutor.fxChild K B.fxChild).Serves t
      ⟨B.mapping, 0, .onStateReceive m'.counter message⟩ c c') ∧
    (B.polygonExecutor K).Serves now (B.executorMessage 0 m'.counter sender data) e e' := by
  obtain ⟨counter, message', hcounter, hmessage', hm⟩ := h.synced
  obtain rfl : message' = message := Bytes.ext (hmessage'.trans hmessage.symm)
  refine ⟨fun t => ?_, fun t => ?_, h.takes.serves _⟩
  · have hrun : ((customPolygonMapping K B.mapping).entry t
        ⟨B.fxRoot, 0, .syncState B.fxChild message'⟩ m).run (fun _ _ _ => (true, [], ())) ()
          = .ok (m', (), ()) := by
      rw [CustomPolygonMapping.entry_syncState, CustomPolygonMapping.run_syncState]
      exact ⟨h.registered, counter, hcounter, hm, [], rfl⟩
    exact .of_run (fun _ _ => rfl) hrun
  · rw [h.told]
    exact serves_passOn (FxChild.entry_onStateReceive hmessage c)

end PolygonBridge

section

open PolygonBridge

variable [DecidableEq H] {B : PolygonBridge}

/--
**A message is queued as it was sent through `FxRoot`, or the whole call reverts.**

It goes through exactly if it fits into memory, `FxRoot` is registered for `FxChild`, the counter
of the state sender can grow, the executor knows `FxChild` and the sender, and `_queue` accepts
the set; a set that was encoded is then queued unchanged, and the executor has made one step.
-/
theorem sendMessageToChild_delivers (hK : K.FourBytes) {s : FxRootStorage} (hs : B.Wired s)
    (now : UInt256) (sender : Address) (data : Bytes) (m m' : MappingStorage)
    (c c' : FxChildStorage) (e e' : State H PolygonStorage) :
    (∀ s', B.sendMessageToChild K now sender B.executor data s (m, c, e, ())
        = .ok (s', (), m', c', e', ()) ↔
      s' = s ∧ B.Delivers K now sender data m m' c c' e e') ∧
    (∀ a : Actions, data.data = a.encode → B.Delivers K now sender data m m' c c' e e' →
      a.WellFormed ∧ e' = e.queued K a (now + e.delay)) ∧
    (B.Delivers K now sender data m m' c c' e e' → ∃ counter message,
      (customPolygonMapping K B.mapping).Serves now ⟨B.fxRoot, 0, .syncState B.fxChild message⟩
        m m' ∧
      (fxChild K B.fxChild).Serves now ⟨B.mapping, 0, .onStateReceive counter message⟩ c c' ∧
      (B.polygonExecutor K).Serves now (B.executorMessage 0 counter sender data) e e') := by
  refine ⟨fun s' => sendMessageToChild_eq hK hs, fun a hdata h => ?_, fun h => ?_⟩
  · obtain ⟨-, -, hq⟩ := (takes_encode hdata).mp h.takes
    obtain ⟨hwf, -, -, -, he⟩ := queue_eq_ok.mp hq
    exact ⟨hwf, he⟩
  · obtain ⟨-, message, -, hmessage, -⟩ := h.synced
    obtain ⟨hmapping, hchild, hexecutor⟩ := h.serves hmessage
    exact ⟨m'.counter, message, hmapping now, hchild now, hexecutor⟩

/--
**`FxChild` vouches for nobody.**

Any account can name the sender on Ethereum in a message that it makes up, and have any set
queued that `_queue` accepts: the check of the caller is commented out.
-/
theorem onStateReceive_forged (hK : K.FourBytes) {now stateId : UInt256} {a : Actions}
    {data message : Bytes} {e : State H PolygonStorage} (hchild : B.fxChild = e.own.fxChild)
    (hdata : data.data = a.encode)
    (hmessage : message.data = fxMessageFields.encode (e.own.fxRootSender, B.executor, data, ()))
    (caller : Address) (c c' : FxChildStorage) (e' : State H PolygonStorage) :
    B.onStateReceive K now caller stateId message c (e, ()) = .ok (c', (), e', ()) ↔
      c' = FxChild.told c e.own.fxRootSender B.executor data ∧ queue K now a e = .ok e' := by
  rw [onStateReceive_eq hK hmessage, takes_encode hdata]
  exact ⟨fun h => ⟨h.1, h.2.2.2⟩, fun h => ⟨h.1, hchild, rfl, h.2⟩⟩

end

/-! ## An example

Governance sends a set with one action to an executor on Polygon, and somebody else does so, too.
-/

namespace Example

def polygonBridge : PolygonBridge where
  fxRoot := 1
  mapping := 2
  fxChild := 3
  executor := this
  elsewhere _ := (true, [])
  revertData _ := []
  errorData _ := []

def linkedRoot : FxRootStorage := ⟨2, 3⟩

def linkedMapping : MappingStorage :=
  (CustomPolygonMapping.construct 9).setRegistration 3 1

def linkedExecutor : State (List UInt8) PolygonStorage :=
  (((((blank ⟨governance, 3⟩ 0).updateDelay 100).updateGracePeriod 600).updateMinimumDelay
    0).updateMaximumDelay 200).updateGuardian 7

def linkedExecutor' : State (List UInt8) PolygonStorage :=
  linkedExecutor.queued paddedKeccak actions 1100

def encodedActions : Bytes := ⟨actions.encode, by decide +kernel⟩

def encodedMessage : Bytes :=
  ⟨fxMessageFields.encode (governance, this, encodedActions, ()), by decide +kernel⟩

theorem encodedActions_data : encodedActions.data = actions.encode := rfl

theorem encodedMessage_data : encodedMessage.data
    = fxMessageFields.encode (governance, this, encodedActions, ()) := rfl

theorem queue_linkedExecutor :
    queue paddedKeccak 1000 actions linkedExecutor = .ok linkedExecutor' :=
  queue_eq_ok.mpr ⟨wellFormed_actions, by decide, List.nodup_singleton _, fun _ _ => rfl, rfl⟩

theorem takes_encodedActions : polygonBridge.Takes paddedKeccak 1000 governance encodedActions
    linkedExecutor linkedExecutor' :=
  (PolygonBridge.takes_encode encodedActions_data).mpr ⟨rfl, rfl, queue_linkedExecutor⟩

end Example

/-- Governance sends the set through `FxRoot`. -/
theorem sendMessageToChild_delivers_actions : Example.polygonBridge.sendMessageToChild
    Example.paddedKeccak 1000 Example.governance Example.this Example.encodedActions
    Example.linkedRoot (Example.linkedMapping, FxChild.construct, Example.linkedExecutor, ())
      = .ok (Example.linkedRoot, (),
        CustomPolygonMapping.synced Example.linkedMapping 1 3 Example.encodedMessage,
        FxChild.told FxChild.construct Example.governance Example.this
          Example.encodedActions, Example.linkedExecutor', ()) :=
  ((sendMessageToChild_delivers Example.fourBytes_paddedKeccak (B := Example.polygonBridge)
    ⟨rfl, rfl⟩ _ _ _ _ _ _ _ _ _).1 _).mpr
      ⟨rfl, rfl, ⟨1, Example.encodedMessage, rfl, Example.encodedMessage_data, rfl⟩, rfl,
        Example.takes_encodedActions⟩

/-- The account 66 does the same without Ethereum. -/
theorem onStateReceive_forged_actions : Example.polygonBridge.onStateReceive
    Example.paddedKeccak 1000 66 5 Example.encodedMessage FxChild.construct
      (Example.linkedExecutor, ())
      = .ok (FxChild.told FxChild.construct Example.governance Example.this
        Example.encodedActions, (), Example.linkedExecutor', ()) :=
  (onStateReceive_forged (B := Example.polygonBridge) (e := Example.linkedExecutor)
    Example.fourBytes_paddedKeccak rfl Example.encodedActions_data Example.encodedMessage_data
    66 _ _ _).mpr ⟨rfl, Example.queue_linkedExecutor⟩

end BridgeExecutor
