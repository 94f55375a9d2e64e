import BridgeExecutor.Contracts.Bridge

/-!
# The messengers of Optimism

`MockOvmL1CrossDomainMessenger` and `MockOvmL2CrossDomainMessenger` stand in for the messengers
at the two ends of the bridge to Optimism.  `sendMessage` of each calls `redirect` of the other,
which calls the target; only the one on Optimism says who has sent the message, and only there a
failing target makes the call revert.

The target is called with the gas limit of the message, and a target that does not get by with
it fails.  The other messenger is called without a limit; one without code does not answer with
success.
-/

namespace BridgeExecutor

open Reentrant

/-! ## On Ethereum -/

structure L1MessengerStorage where
  sender : Address
  l2Messenger : Address
deriving DecidableEq

inductive L1MessengerFn where
  | setSender (sender : Address)
  | setL2Messenger (l2Messenger : Address)
  | sendMessage (target : Address) (message : Bytes) (gasLimit : BitVec 32)
  | redirect (target : Address) (message : Bytes) (gasLimit : BitVec 32)

namespace MockOvmL1CrossDomainMessenger

def construct : L1MessengerStorage := ⟨0, 0⟩

def setSender (sender : Address) (s : L1MessengerStorage) : GasProgram L1MessengerStorage :=
  .done { s with sender } ()

def setL2Messenger (l2Messenger : Address) (s : L1MessengerStorage) :
    GasProgram L1MessengerStorage := .done { s with l2Messenger } ()

def xDomainMessageSender (s : L1MessengerStorage) : Address := s.sender

def sendMessage {H : Type} (K : Keccak H) (sender target : Address) (message : Bytes)
    (gasLimit : BitVec 32) (s : L1MessengerStorage) : GasProgram L1MessengerStorage :=
  passOn s ⟨⟨false, s.l2Messenger, 0,
    (redirectMethod K).callData (sender, target, message, gasLimit, ())⟩, none⟩

/-- Whether the target succeeds is not looked at. -/
def redirect (target : Address) (message : Bytes) (gasLimit : BitVec 32)
    (s : L1MessengerStorage) : GasProgram L1MessengerStorage :=
  .call s ⟨⟨false, target, 0, message.data⟩, some gasLimit.toNat⟩ fun s' _ _ => .done s' ()

def entry {H : Type} (K : Keccak H) (sender : Address) :
    L1MessengerFn → L1MessengerStorage → GasProgram L1MessengerStorage
  | .setSender sender' => setSender sender'
  | .setL2Messenger l2Messenger => setL2Messenger l2Messenger
  | .sendMessage target message gasLimit => sendMessage K sender target message gasLimit
  | .redirect target message gasLimit => redirect target message gasLimit

end MockOvmL1CrossDomainMessenger

def l1CrossDomainMessenger {H : Type} (K : Keccak H) (this : Address) :
    Contract Address UInt256 (Request L1MessengerFn) L1MessengerStorage GasCall (List UInt8)
      Revert := bridgeContract (·.target) this (MockOvmL1CrossDomainMessenger.entry K)

/-! ## On Optimism -/

structure L2MessengerStorage where
  sender : Address
  l1Messenger : Address
deriving DecidableEq

inductive L2MessengerFn where
  | setSender (sender : Address)
  | setL1Messenger (l1Messenger : Address)
  | sendMessage (target : Address) (message : Bytes) (gasLimit : BitVec 32)
  | redirect (xDomainMessageSender target : Address) (message : Bytes) (gasLimit : BitVec 32)

namespace MockOvmL2CrossDomainMessenger

def construct : L2MessengerStorage := ⟨0, 0⟩

def setSender (sender : Address) (s : L2MessengerStorage) : GasProgram L2MessengerStorage :=
  .done { s with sender } ()

def setL1Messenger (l1Messenger : Address) (s : L2MessengerStorage) :
    GasProgram L2MessengerStorage := .done { s with l1Messenger } ()

def xDomainMessageSender (s : L2MessengerStorage) : Address := s.sender

def sendMessage {H : Type} (K : Keccak H) (target : Address) (message : Bytes)
    (gasLimit : BitVec 32) (s : L2MessengerStorage) : GasProgram L2MessengerStorage :=
  passOn s ⟨⟨false, s.l1Messenger, 0,
    (redirectToL1Method K).callData (target, message, gasLimit, ())⟩, none⟩

/-- The sender is written before the call, and left there afterwards. -/
def redirect (xDomainMessageSender target : Address) (message : Bytes) (gasLimit : BitVec 32)
    (s : L2MessengerStorage) : GasProgram L2MessengerStorage :=
  passOn { s with sender := xDomainMessageSender }
    ⟨⟨false, target, 0, message.data⟩, some gasLimit.toNat⟩

def entry {H : Type} (K : Keccak H) (_ : Address) :
    L2MessengerFn → L2MessengerStorage → GasProgram L2MessengerStorage
  | .setSender sender => setSender sender
  | .setL1Messenger l1Messenger => setL1Messenger l1Messenger
  | .sendMessage target message gasLimit => sendMessage K target message gasLimit
  | .redirect xDomainMessageSender target message gasLimit =>
    redirect xDomainMessageSender target message gasLimit

end MockOvmL2CrossDomainMessenger

def l2CrossDomainMessenger {H : Type} (K : Keccak H) (this : Address) :
    Contract Address UInt256 (Request L2MessengerFn) L2MessengerStorage GasCall (List UInt8)
      Revert := bridgeContract (·.target) this (MockOvmL2CrossDomainMessenger.entry K)

end BridgeExecutor
