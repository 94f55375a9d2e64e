import BridgeExecutor.Contracts.CrossDomainMessenger
import BridgeExecutor.System

/-!
# The bridge to Optimism

The two messengers and an executor, linked to one another, in both directions.  While the
messenger on Optimism calls the executor, the executor asks it back who has sent the message.
-/

namespace BridgeExecutor

open Reentrant

/-- A deployment: where the contracts are, the messenger that the executor was constructed with,
how the other accounts answer, what the errors of the contracts look like to a caller, and
whether a callee gets by with so much gas, in the transaction at hand.  The transaction itself has
gas enough. -/
structure OptimismBridge where
  l1Messenger : Address
  l2Messenger : Address
  executor : Address
  ovmL2CrossDomainMessenger : Address
  elsewhere : OutCall → Bool × List UInt8
  revertData : Revert → List UInt8
  errorData : Error → List UInt8
  enoughGas : OutCall → Nat → Bool

namespace OptimismBridge

variable {H : Type} [DecidableEq H] (B : OptimismBridge) (K : Keccak H) (now : UInt256)

/-- The message with which the messenger in the state `s` calls the executor. -/
def executorMessage (s : L2MessengerStorage) (value : UInt256) (actions : Actions) :
    Message L2Fn where
  sender := B.l2Messenger
  value := value
  xDomainMessageSender := .ok (MockOvmL2CrossDomainMessenger.xDomainMessageSender s)
  fn := .own (.queue actions)

/-- The executor, called by the messenger. -/
def executorAnswers (s : L2MessengerStorage) : OutCall → State H L2Storage × Unit →
    Bool × List UInt8 × (State H L2Storage × Unit) :=
  answers B.elsewhere B.executor (queueMethod K) B.errorData (fun _ _ r => (false, [], r))
    fun value actions =>
      external K (optimismBridgeExecutor B.ovmL2CrossDomainMessenger) B.executor now
        (B.executorMessage s value actions)

/-- The messenger on Optimism, called by the one on Ethereum. -/
def l2MessengerAnswers : OutCall → L2MessengerStorage × State H L2Storage × Unit →
    Bool × List UInt8 × (L2MessengerStorage × State H L2Storage × Unit) :=
  answers B.elsewhere B.l2Messenger (redirectMethod K) B.revertData
    (fun s => limited B.enoughGas (B.executorAnswers K now s))
    fun value (xDomainMessageSender, target, message, gasLimit, ()) =>
      (l2CrossDomainMessenger K B.l2Messenger).entry now
        ⟨B.l1Messenger, value, .redirect xDomainMessageSender target message gasLimit⟩

/-- The messenger on Ethereum, called by the one on Optimism. -/
def l1MessengerAnswers : OutCall → L1MessengerStorage × Unit →
    Bool × List UInt8 × (L1MessengerStorage × Unit) :=
  answers B.elsewhere B.l1Messenger (redirectToL1Method K) B.revertData
    (fun _ => limited B.enoughGas fun q r => ((B.elsewhere q).1, (B.elsewhere q).2, r))
    fun value (target, message, gasLimit, ()) =>
      (l1CrossDomainMessenger K B.l1Messenger).entry now
        ⟨B.l2Messenger, value, .redirect target message gasLimit⟩

/-- A transaction of `sender` that sends a message to Optimism. -/
def sendMessage (sender target : Address) (message : Bytes) (gasLimit : BitVec 32)
    (s : L1MessengerStorage) (w : L2MessengerStorage × State H L2Storage × Unit) :
    Except Revert (L1MessengerStorage × Unit × (L2MessengerStorage × State H L2Storage × Unit)) :=
  ((l1CrossDomainMessenger K B.l1Messenger).entry now
    ⟨sender, 0, .sendMessage target message gasLimit⟩ s).run
      (fun _ => limited B.enoughGas (B.l2MessengerAnswers K now)) w

/-- A transaction of `sender` that calls `redirect` on Optimism. -/
def redirect (sender xDomainMessageSender target : Address) (message : Bytes)
    (gasLimit : BitVec 32) (s : L2MessengerStorage) (w : State H L2Storage × Unit) :
    Except Revert (L2MessengerStorage × Unit × (State H L2Storage × Unit)) :=
  ((l2CrossDomainMessenger K B.l2Messenger).entry now
    ⟨sender, 0, .redirect xDomainMessageSender target message gasLimit⟩ s).run
      (fun s => limited B.enoughGas (B.executorAnswers K now s)) w

/-- A transaction of `sender` that sends a message to Ethereum. -/
def sendMessageToL1 (sender target : Address) (message : Bytes) (gasLimit : BitVec 32)
    (s : L2MessengerStorage) (w : L1MessengerStorage × Unit) :
    Except Revert (L2MessengerStorage × Unit × (L1MessengerStorage × Unit)) :=
  ((l2CrossDomainMessenger K B.l2Messenger).entry now
    ⟨sender, 0, .sendMessage target message gasLimit⟩ s).run
      (fun _ => limited B.enoughGas (B.l1MessengerAnswers K now)) w

end OptimismBridge

end BridgeExecutor
