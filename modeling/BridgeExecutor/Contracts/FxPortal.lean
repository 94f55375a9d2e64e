import BridgeExecutor.Contracts.Bridge

/-!
# `FxRoot` and `FxChild`

The two ends of the bridge to Polygon.  `FxRoot` wraps a message together with its sender and
hands it to the state sender; `FxChild` unwraps it and calls the receiver.
-/

namespace BridgeExecutor

open Reentrant

/-- `(address, address, bytes)`: the sender on Ethereum, the receiver and the message. -/
def fxMessageFields : Abi.Fields (Address × Address × Bytes × Unit) :=
  .cons addressCodec <| .cons addressCodec <| .cons bytesCodec .nil

theorem decode_fxMessage {sender receiver : Address} {data message : Bytes}
    (h : message.data = fxMessageFields.encode (sender, receiver, data, ())) :
    fxMessageFields.decode message.data 0 = some (sender, receiver, data, ()) := by
  have hreads : fxMessageFields.Reads (sender, receiver, data, ()) :=
    Abi.Fields.cons_reads (address_reads _) <| Abi.Fields.cons_reads (address_reads _) <|
      Abi.Fields.cons_reads (bytes_reads _) Abi.Fields.nil_reads
  have hsmall : fxMessageFields.Small (sender, receiver, data, ()) :=
    ⟨nofun, nofun, fun _ => (by decide : 96 < 2 ^ 64), trivial⟩
  have hread := hreads.decode_encode hsmall []
  rw [h, ← hread, List.append_nil]

/-! ## `FxRoot` -/

structure FxRootStorage where
  stateSender : Address
  fxChild : Address
deriving DecidableEq

inductive FxRootFn where
  | setFxChild (fxChild : Address)
  | sendMessageToChild (receiver : Address) (data : Bytes)

namespace FxRoot

def construct (stateSender : Address) : FxRootStorage := ⟨stateSender, 0⟩

def setFxChild (fxChild : Address) (s : FxRootStorage) : BridgeProgram FxRootStorage :=
  if s.fxChild = 0 then .done { s with fxChild } () else .fail .require

def sendMessageToChild {H : Type} (K : Keccak H) (sender receiver : Address) (data : Bytes)
    (s : FxRootStorage) : BridgeProgram FxRootStorage :=
  match toBytes (fxMessageFields.encode (sender, receiver, data, ())) with
  | none => .fail .rejected
  | some message =>
    callOut s s.stateSender ((syncStateMethod K).callData (s.fxChild, message, ()))

def entry {H : Type} (K : Keccak H) (sender : Address) :
    FxRootFn → FxRootStorage → BridgeProgram FxRootStorage
  | .setFxChild fxChild => setFxChild fxChild
  | .sendMessageToChild receiver data => sendMessageToChild K sender receiver data

end FxRoot

def fxRoot {H : Type} (K : Keccak H) (this : Address) :
    Contract Address UInt256 (Request FxRootFn) FxRootStorage OutCall (List UInt8) Revert :=
  bridgeContract OutCall.target this (FxRoot.entry K)

/-! ## `FxChild` -/

inductive FxChildEvent where
  | newFxMessage (rootMessageSender receiver : Address) (data : Bytes)
deriving DecidableEq

structure FxChildStorage where
  fxRoot : Address
  logs : List FxChildEvent
deriving DecidableEq

inductive FxChildFn where
  | setFxRoot (fxRoot : Address)
  | onStateReceive (stateId : UInt256) (data : Bytes)

namespace FxChild

def construct : FxChildStorage := ⟨0, []⟩

def setFxRoot (fxRoot : Address) (s : FxChildStorage) : BridgeProgram FxChildStorage :=
  if s.fxRoot = 0 then .done { s with fxRoot } () else .fail .require

/-- The check of the sender is commented out in the source: anybody may call. -/
def onStateReceive {H : Type} (K : Keccak H) (stateId : UInt256) (data : Bytes)
    (s : FxChildStorage) : BridgeProgram FxChildStorage :=
  match fxMessageFields.decode data.data 0 with
  | none => .fail .rejected
  | some (rootMessageSender, receiver, data, ()) =>
    callOut { s with logs := s.logs ++ [.newFxMessage rootMessageSender receiver data] } receiver
      ((processMessageFromRootMethod K).callData (stateId, rootMessageSender, data, ()))

def entry {H : Type} (K : Keccak H) (_ : Address) :
    FxChildFn → FxChildStorage → BridgeProgram FxChildStorage
  | .setFxRoot fxRoot => setFxRoot fxRoot
  | .onStateReceive stateId data => onStateReceive K stateId data

end FxChild

def fxChild {H : Type} (K : Keccak H) (this : Address) :
    Contract Address UInt256 (Request FxChildFn) FxChildStorage OutCall (List UInt8) Revert :=
  bridgeContract OutCall.target this (FxChild.entry K)

end BridgeExecutor
