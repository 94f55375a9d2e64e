import BridgeExecutor.Contracts.Bridge
import BridgeExecutor.System

/-!
# The bridge to Arbitrum

`MockInbox` stands in for the inbox of Arbitrum, and is put where the alias of the governance of
Ethereum is.  A retryable ticket is redeemed within the call that creates it, with the gas that
the ticket allows, and that call does not revert if the ticket fails.
-/

namespace BridgeExecutor

open Reentrant

/-! ## `MockInbox` -/

structure InboxStorage where
  messageNum : UInt256
deriving DecidableEq

namespace MockInbox

def construct : InboxStorage := ⟨0⟩

def setMessageNum (msgNum : UInt256) (_ : InboxStorage) : InboxStorage := ⟨msgNum⟩

/-- Whether the target succeeds is not looked at, and the ether of the ticket stays here. -/
def createRetryableTicket (target : Address) (gasLimit : UInt256) (data : Bytes)
    (s : InboxStorage) : Prog InboxStorage GasCall (List UInt8) Revert UInt256 :=
  .call s ⟨⟨false, target, 0, data.data⟩, some gasLimit.toNat⟩ fun s' _ _ =>
    .done s' s'.messageNum

end MockInbox

/-! ## The inbox and an executor -/

/-- A deployment: where the contracts are, how the other accounts answer, what the errors of the
executor look like to a caller, and whether a callee gets by with so much gas, in the transaction
at hand.  The transaction itself has gas enough. -/
structure ArbitrumBridge where
  inbox : Address
  executor : Address
  elsewhere : OutCall → Bool × List UInt8
  errorData : Error → List UInt8
  enoughGas : OutCall → Nat → Bool

namespace ArbitrumBridge

variable {H : Type} [DecidableEq H] (B : ArbitrumBridge) (K : Keccak H) (now : UInt256)

/-- The message with which the inbox calls the executor. -/
def executorMessage (value : UInt256) (actions : Actions) : Message L2Fn where
  sender := B.inbox
  value := value
  xDomainMessageSender := .error []
  fn := .own (.queue actions)

/-- The executor, called by the inbox. -/
def executorAnswers : OutCall → State H L2Storage × Unit →
    Bool × List UInt8 × (State H L2Storage × Unit) :=
  answers B.elsewhere B.executor (queueMethod K) B.errorData (fun _ _ r => (false, [], r))
    fun value actions =>
      external K arbitrumBridgeExecutor B.executor now (B.executorMessage value actions)

/-- A transaction that creates a ticket for `target`; what it returns stands in the middle. -/
def createRetryableTicket (target : Address) (gasLimit : UInt256) (data : Bytes)
    (s : InboxStorage) (w : State H L2Storage × Unit) :
    Except Revert (InboxStorage × UInt256 × (State H L2Storage × Unit)) :=
  (MockInbox.createRetryableTicket target gasLimit data s).run
    (fun _ => limited B.enoughGas (B.executorAnswers K now)) w

end ArbitrumBridge

end BridgeExecutor
