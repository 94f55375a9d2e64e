import BridgeExecutor.System
import Mathlib.Data.List.OfFn

/-!
# The harness contracts of the formal verification

`PolygonHarness` and `L2BridgeExecutorHarness` inherit from a copy of the contracts and override
what the prover could not handle: `_queue2` queues fixed arrays of two, and an action calls
`_mock` instead of its target.
The copy of `BridgeExecutorBase` differs from the original in visibility only, so the functions
that are not overridden are those of `BridgeExecutorBase`, `cancel` among them.

* `Harness.queue2`, `Harness.execute`, `Harness.noDelegateCalls` — the functions
* `polygonHarness`, `arbitrumHarness`, `optimismHarness` — the contracts that inherit
* `harness` — any of them among other contracts
-/

namespace BridgeExecutor

open Reentrant

/-! ## The arrays -/

/-- The five arrays of length two. -/
structure Actions2 where
  targets : Fin 2 → Address
  values : Fin 2 → UInt256
  signatures : Fin 2 → Bytes
  calldatas : Fin 2 → Bytes
  withDelegatecalls : Fin 2 → Bool

namespace Actions2

/-- The same arrays, as `_queue` takes them. -/
def toActions (a : Actions2) : Actions where
  targets := List.ofFn a.targets
  values := List.ofFn a.values
  signatures := List.ofFn a.signatures
  calldatas := List.ofFn a.calldatas
  withDelegatecalls := List.ofFn a.withDelegatecalls

def action (a : Actions2) (i : Fin 2) : Action :=
  ⟨a.targets i, a.values i, a.signatures i, a.calldatas i, a.withDelegatecalls i⟩

end Actions2

/-- `keccak256(abi.encode(target, value, executionTime))` -/
def Keccak.harnessHash {H : Type} (K : Keccak H) (target : Address)
    (value executionTime : UInt256) : H :=
  K.hash (Words.word target.toNat ++ (Words.word value.toNat ++ Words.word executionTime.toNat))

namespace Harness

variable {H X : Type}

/-- `array[i] = x; array[i + 1] = y; …` on a storage array.  An assignment does not make the
array longer. -/
def assign {α : Type} : Nat → List α → List α → Except Error (List α)
  | _, [], array => .ok array
  | i, x :: xs, array =>
    if i < array.length then assign (i + 1) xs (array.set i x) else .error .panicIndex

section

variable [DecidableEq H] (K : Keccak H)

/-! ## `_queue2` -/

/-- The first loop of `_queue2`, over the flags alone. -/
def queue2Loop (a : Actions2) (executionTime : UInt256) : List (Fin 2) → (H → Bool) →
    Except Error (H → Bool)
  | [], flags => .ok flags
  | i :: is, flags =>
    let actionHash := K.harnessHash (a.targets i) (a.values i) executionTime
    if flags actionHash then .error .duplicateAction
    else queue2Loop a executionTime is (Function.update flags actionHash true)

/-- `_queue2`.  The checks on the lengths compare two with two.  Three of the five assignments
of arrays are commented out in the source, and no event is emitted. -/
def queue2 (now : UInt256) (a : Actions2) (s : State H X) : Except Error (State H X) :=
  match checkedAdd now s.delay with
  | .error e => .error e
  | .ok executionTime =>
    match queue2Loop K a executionTime (List.finRange 2) s.queuedActions with
    | .error e => .error e
    | .ok flags =>
      let actionsSet := { s.actionsSets s.actionsSetCounter with
        targets := List.ofFn a.targets, values := List.ofFn a.values, executionTime }
      -- the second loop: `actionsSet.withDelegatecalls[j] = withDelegatecalls[j]`
      match assign 0 (List.ofFn a.withDelegatecalls) actionsSet.withDelegatecalls with
      | .error e => .error e
      | .ok withDelegatecalls =>
        .ok <| { (s.setFlags flags) with actionsSetCounter := s.actionsSetCounter + 1 }
          |>.setActionsSet s.actionsSetCounter { actionsSet with withDelegatecalls }

/-! ## `execute` -/

/-- `targetCall(bytes)` with its selector. -/
def targetCallData (data : List UInt8) : List UInt8 :=
  K.bytes4 (K.hash "targetCall(bytes)".toUTF8.data.toList) ++
    (Words.word 32 ++ Words.tail data)

/-- A returned `bool`.  The decoder rejects short data and words other than zero and one. -/
def decodeBool (data : List UInt8) : Option Bool :=
  if data.take 32 = Words.word 1 then some true
  else if data.take 32 = Words.word 0 then some false
  else none

/-- `success = _mock.targetCall(data)`, a call of Solidity's own that passes a revert on. -/
def mockTargetCall (mock : Address) (data : List UInt8) (s : State H X) : Program H X Bool :=
  .call s ⟨false, mock, 0, targetCallData K data⟩ fun s' success resultData =>
    if success then
      match decodeBool resultData with
      | none => .fail .rejected
      | some b => .done s' b
    else .fail (.bubbled resultData)

/-- The override of `executeDelegateCall`.  The target is not called. -/
def executeDelegateCall (mock this sender : Address) (data : List UInt8) (s : State H X) :
    Program H X (Bool × List UInt8) :=
  if sender ≠ this then .fail .onlyCallableByThis
  else (mockTargetCall K mock data s).bind fun s' success => .done s' (success, [])

/-- The override of `_executeTransaction`.  The signature is not used. -/
def executeTransaction (mock this : Address) (a : Action) (executionTime : UInt256)
    (s : State H X) : Program H X (List UInt8) :=
  if s.balance < a.value.toNat then .fail .insufficientBalance
  else
    let s := s.setFlags
      (Function.update s.queuedActions (K.harnessHash a.target a.value executionTime) false)
    let result : Program H X (Bool × List UInt8) :=
      if a.withDelegatecall then
        -- `this.executeDelegateCall{value: value}(target, data)`
        executeDelegateCall K mock this this a.calldata.data s
      else
        (mockTargetCall K mock a.calldata.data s).bind fun s' success => .done s' (success, [])
    result.bind fun s' r =>
      match BridgeExecutorBase.verifyCallResult r.1 r.2 with
      | .error e => .fail e
      | .ok data => .done s' data

/-- The loop of `execute`, with the `_executeTransaction` above. -/
def executeLoop (mock this sender : Address) (actionsSetId : Nat) :
    Nat → Nat → List (List UInt8) → State H X → Program H X Unit
  | 0, _, returnedData, s =>
    .done (s.emit (.actionsSetExecuted actionsSetId sender returnedData)) ()
  | n + 1, i, returnedData, s =>
    match (s.actionsSets actionsSetId).action? i with
    | none => .fail .panicIndex
    | some action =>
      (executeTransaction K mock this action (s.actionsSets actionsSetId).executionTime s).bind
        fun s' result =>
          executeLoop mock this sender actionsSetId n (i + 1) (returnedData ++ [result]) s'

def execute (mock this : Address) (now : UInt256) (sender : Address) (actionsSetId : Nat)
    (s : State H X) : Program H X Unit :=
  match BridgeExecutorBase.requireExecutable now s actionsSetId with
  | .error e => .fail e
  | .ok () =>
    executeLoop K mock this sender actionsSetId (s.actionsSets actionsSetId).targets.length 0 []
      (s.setActionsSet actionsSetId { s.actionsSets actionsSetId with executed := true })

end

/-- `noDelegateCalls` -/
def noDelegateCalls (this sender : Address) (actionsSetId : Nat) (s : State H X) :
    Except Error (State H X) :=
  BridgeExecutorBase.onlyThis this sender <|
    match assign 0 (List.replicate (s.actionsSets actionsSetId).targets.length false)
        (s.actionsSets actionsSetId).withDelegatecalls with
    | .error e => .error e
    | .ok withDelegatecalls =>
      .ok <| s.setActionsSet actionsSetId
        { s.actionsSets actionsSetId with withDelegatecalls }

end Harness

/-! ## The contracts that inherit -/

/-- What a function of a harness contract asks for. -/
inductive HarnessEffect (X : Type) where
  | queue2 (actions : Actions2)
  | write (own : X) (event : Event)
  | nothing

/-- A harness contract with storage `X` and external functions `Φ` besides those above. -/
structure HarnessChild (X Φ : Type) where
  handle : Address → Msg → X → Φ → Except Error (HarnessEffect X)

/-- `PolygonHarness`.  `abiDecode` is `abi.decode` at the types of the five fixed arrays. -/
def polygonHarness (abiDecode : Bytes → Option Actions2) :
    HarnessChild PolygonStorage PolygonFn where
  handle this msg own
    | .processMessageFromRoot _ rootMessageSender data =>
      if msg.sender ≠ own.fxChild then .error .unauthorizedChildOrigin
      else if rootMessageSender ≠ own.fxRootSender then .error .unauthorizedRootOrigin
      else
        match abiDecode data with
        | none => .error .rejected
        | some actions => .ok (.queue2 actions)
    | .updateFxRootSender fxRootSender =>
      if msg.sender ≠ this then .error .onlyCallableByThis
      else
        .ok (.write { own with fxRootSender } (.fxRootSenderUpdate own.fxRootSender fxRootSender))
    | .updateFxChild fxChild =>
      if msg.sender ≠ this then .error .onlyCallableByThis
      else .ok (.write { own with fxChild } (.fxChildUpdate own.fxChild fxChild))

inductive L2HarnessFn where
  | queue (actions : Actions)
  | queue2 (actions : Actions2)
  | updateEthereumGovernanceExecutor (ethereumGovernanceExecutor : Address)

/-- `L2BridgeExecutorHarness` over the virtual modifier.  In the copy of `L2BridgeExecutor` the
body of `queue` is commented out.  Both contracts that extend it override `_executeTransaction`
as `PolygonHarness` does. -/
def l2BridgeExecutorHarness
    (onlyEthereumGovernanceExecutor : Msg → L2Storage → Except Error Unit) :
    HarnessChild L2Storage L2HarnessFn where
  handle this msg own
    | .queue _ =>
      match onlyEthereumGovernanceExecutor msg own with
      | .error e => .error e
      | .ok () => .ok .nothing
    | .queue2 actions =>
      match onlyEthereumGovernanceExecutor msg own with
      | .error e => .error e
      | .ok () => .ok (.queue2 actions)
    | .updateEthereumGovernanceExecutor ethereumGovernanceExecutor =>
      if msg.sender ≠ this then .error .onlyCallableByThis
      else
        .ok (.write ⟨ethereumGovernanceExecutor⟩
          (.ethereumGovernanceExecutorUpdate own.ethereumGovernanceExecutor
            ethereumGovernanceExecutor))

def arbitrumHarness : HarnessChild L2Storage L2HarnessFn :=
  l2BridgeExecutorHarness arbitrumOnlyEthereumGovernanceExecutor

/-- `OptimismHarness`.  It compares a stored address in place of the messenger's answer. -/
def optimismHarness (ovmL2CrossDomainMessenger domainMsgSender : Address) :
    HarnessChild L2Storage L2HarnessFn :=
  l2BridgeExecutorHarness fun msg own =>
    if msg.sender ≠ ovmL2CrossDomainMessenger ∨
        domainMsgSender ≠ own.ethereumGovernanceExecutor then
      .error .unauthorizedEthereumExecutor
    else .ok ()

/-! ## A harness contract among other contracts -/

/-- The external functions of a harness contract besides those of `BridgeExecutorBase`. -/
inductive HarnessFn (Φ : Type) where
  | noDelegateCalls (actionsSetId : Nat)
  | child (f : Φ)

variable {H X Φ : Type} [DecidableEq H] (K : Keccak H) (child : HarnessChild X Φ)
  (mock this : Address)

def harnessOwn (now : UInt256) (msg : Msg) (s : State H X) :
    HarnessFn Φ → Except Error (State H X)
  | .noDelegateCalls actionsSetId => Harness.noDelegateCalls this msg.sender actionsSetId s
  | .child f =>
    match child.handle this msg s.own f with
    | .error e => .error e
    | .ok (.queue2 actions) => Harness.queue2 K now actions s
    | .ok (.write own event) => .ok { s.emit event with own }
    | .ok .nothing => .ok s

/-- `BridgeExecutorBase` on its own: no function of an inheriting contract answers. -/
def noChild (X Ψ : Type) : Child X Ψ := ⟨fun _ _ _ _ => .error .rejected⟩

/-- A message to a harness contract. -/
def harnessExternal (now : UInt256) (m : Message (HarnessFn Φ)) (s : State H X) :
    Program H X Unit :=
  match m.fn with
  | .execute id => Harness.execute K mock this now m.sender id (s.receive this m.toMsg)
  | .executeDelegateCall _ data =>
    (Harness.executeDelegateCall K mock this m.sender data (s.receive this m.toMsg)).bind
      fun s' _ => .done s' ()
  | .own f => .ofExcept (nonPayable m.toMsg (harnessOwn K child this now m.toMsg s f))
  | fn =>
    match plain K (noChild X (HarnessFn Φ)) this now m.toMsg s fn with
    | none => .fail .rejected
    | some r => .ofExcept r

/-- The harness contract at the address `this`, with the mock at `mock`. -/
def harness :
    Contract Address UInt256 (Message (HarnessFn Φ)) (State H X) OutCall (List UInt8) Error where
  this := this
  sender m := m.sender
  entry := harnessExternal K child mock this
  issue := issue this
  runsAt := runsAt this
  drifts := Drifts this

end BridgeExecutor
