import BridgeExecutor.Types

/-!
# The contracts that inherit from `BridgeExecutorBase`

`Child` is what such a contract adds: storage of its own and external functions, each of which
either queues a set through `_queue` or writes the contract's own storage.

* `l2BridgeExecutor` — `L2BridgeExecutor`, abstract in `onlyEthereumGovernanceExecutor`
* `optimismBridgeExecutor`, `arbitrumBridgeExecutor` — its two instances
* `polygonBridgeExecutor`
-/

namespace BridgeExecutor

/-- What a function knows about the call it serves.  `xDomainMessageSender` is the answer that
the cross domain messenger gives during the call, or the data it reverts with. -/
structure Msg where
  sender : Address
  value : UInt256
  xDomainMessageSender : Except (List UInt8) Address

/-- What a function of an inheriting contract asks for. -/
inductive Effect (X : Type) where
  | queue (actions : Actions)
  | write (own : X) (event : Event)

/-- An inheriting contract with storage `X` and external functions `Φ`; `handle` is given the
executor's own address. -/
structure Child (X Φ : Type) where
  handle : Address → Msg → X → Φ → Except Error (Effect X)

/-! ## `L2BridgeExecutor` -/

structure L2Storage where
  ethereumGovernanceExecutor : Address
deriving DecidableEq

inductive L2Fn where
  | queue (actions : Actions)
  | updateEthereumGovernanceExecutor (ethereumGovernanceExecutor : Address)

/-- `L2BridgeExecutor` over the virtual modifier `onlyEthereumGovernanceExecutor`. -/
def l2BridgeExecutor (onlyEthereumGovernanceExecutor : Msg → L2Storage → Except Error Unit) :
    Child L2Storage L2Fn where
  handle this msg own
    | .queue actions =>
      match onlyEthereumGovernanceExecutor msg own with
      | .error e => .error e
      | .ok () => .ok (.queue actions)
    | .updateEthereumGovernanceExecutor ethereumGovernanceExecutor =>
      if msg.sender ≠ this then .error .onlyCallableByThis
      else
        .ok (.write ⟨ethereumGovernanceExecutor⟩
          (.ethereumGovernanceExecutorUpdate own.ethereumGovernanceExecutor
            ethereumGovernanceExecutor))

/-! ## `OptimismBridgeExecutor` -/

/-- The messenger is asked only if it is the sender. -/
def optimismOnlyEthereumGovernanceExecutor (ovmL2CrossDomainMessenger : Address) (msg : Msg)
    (own : L2Storage) : Except Error Unit :=
  if msg.sender ≠ ovmL2CrossDomainMessenger then .error .unauthorizedEthereumExecutor
  else
    match msg.xDomainMessageSender with
    | .error data => .error (.bubbled data)
    | .ok xDomainMessageSender =>
      if xDomainMessageSender ≠ own.ethereumGovernanceExecutor then
        .error .unauthorizedEthereumExecutor
      else .ok ()

def optimismBridgeExecutor (ovmL2CrossDomainMessenger : Address) : Child L2Storage L2Fn :=
  l2BridgeExecutor (optimismOnlyEthereumGovernanceExecutor ovmL2CrossDomainMessenger)

/-! ## `ArbitrumBridgeExecutor` -/

namespace AddressAliasHelper

/-- `OFFSET` -/
def offset : Address := 0x1111000000000000000000000000000000001111

def applyL1ToL2Alias (l1Address : Address) : Address := l1Address + offset

def undoL1ToL2Alias (l2Address : Address) : Address := l2Address - offset

@[simp] theorem undo_apply (a : Address) : undoL1ToL2Alias (applyL1ToL2Alias a) = a :=
  BitVec.add_sub_cancel a offset

@[simp] theorem apply_undo (a : Address) : applyL1ToL2Alias (undoL1ToL2Alias a) = a :=
  BitVec.sub_add_cancel a offset

end AddressAliasHelper

def arbitrumOnlyEthereumGovernanceExecutor (msg : Msg) (own : L2Storage) : Except Error Unit :=
  if AddressAliasHelper.undoL1ToL2Alias msg.sender ≠ own.ethereumGovernanceExecutor then
    .error .unauthorizedEthereumExecutor
  else .ok ()

def arbitrumBridgeExecutor : Child L2Storage L2Fn :=
  l2BridgeExecutor arbitrumOnlyEthereumGovernanceExecutor

/-! ## `PolygonBridgeExecutor` -/

structure PolygonStorage where
  fxRootSender : Address
  fxChild : Address
deriving DecidableEq

inductive PolygonFn where
  | processMessageFromRoot (stateId : UInt256) (rootMessageSender : Address) (data : Bytes)
  | updateFxRootSender (fxRootSender : Address)
  | updateFxChild (fxChild : Address)

/-- `abiDecode` is `abi.decode` at the types of the five arrays; it may revert. -/
def polygonBridgeExecutor (abiDecode : Bytes → Option Actions) :
    Child PolygonStorage PolygonFn where
  handle this msg own
    | .processMessageFromRoot _ rootMessageSender data =>
      if msg.sender ≠ own.fxChild then .error .unauthorizedChildOrigin
      else if rootMessageSender ≠ own.fxRootSender then .error .unauthorizedRootOrigin
      else
        match abiDecode data with
        | none => .error .rejected
        | some actions => .ok (.queue actions)
    | .updateFxRootSender fxRootSender =>
      if msg.sender ≠ this then .error .onlyCallableByThis
      else
        .ok (.write { own with fxRootSender } (.fxRootSenderUpdate own.fxRootSender fxRootSender))
    | .updateFxChild fxChild =>
      if msg.sender ≠ this then .error .onlyCallableByThis
      else .ok (.write { own with fxChild } (.fxChildUpdate own.fxChild fxChild))

end BridgeExecutor
