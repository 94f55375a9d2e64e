import BridgeExecutor.Contracts.BridgeExecutorBase
import BridgeExecutor.Contracts.Inheriting
import BridgeExecutor.Reentrant.Frames

/-!
# The executor among other contracts

`external` dispatches a message to the functions of `BridgeExecutorBase` and of the inheriting
contract; `executor` makes a `Contract` of them, so that every run of the machine is a history
of the executor: constructor, transactions at non-decreasing timestamps, re-entrant calls,
reverting frames.

The view functions leave the state as it is and are no messages here.

Outside code can send ether to the executor at any time, and code that runs at the executor's
address can spend it and emit logs.  It does not write the executor's storage, and does not
destroy the executor.
-/

namespace BridgeExecutor

open Reentrant

/-- The external functions that write; `own` are those of the inheriting contract. -/
inductive Fn (Φ : Type) where
  | execute (actionsSetId : Nat)
  | cancel (actionsSetId : Nat)
  | updateGuardian (guardian : Address)
  | updateDelay (delay : UInt256)
  | updateGracePeriod (gracePeriod : UInt256)
  | updateMinimumDelay (minimumDelay : UInt256)
  | updateMaximumDelay (maximumDelay : UInt256)
  | executeDelegateCall (target : Address) (data : List UInt8)
  | receiveFunds
  | own (f : Φ)

structure Message (Φ : Type) extends Msg where
  fn : Fn Φ

variable {H X Φ : Type}

/-- The value of the message reaches the executor.  What it sends to itself it already has. -/
def State.receive (s : State H X) (this : Address) (msg : Msg) : State H X :=
  if msg.sender = this then s else s.setBalance (s.balance + msg.value.toNat)

/-- The check of a function that is not payable. -/
def nonPayable {α : Type} (msg : Msg) (body : Except Error α) : Except Error α :=
  if msg.value ≠ 0 then .error .rejected else body

section

variable [DecidableEq H] (K : Keccak H) (child : Child X Φ) (this : Address)

/-- A function of the inheriting contract. -/
def own (now : UInt256) (msg : Msg) (f : Φ) (s : State H X) : Except Error (State H X) :=
  match child.handle this msg s.own f with
  | .error e => .error e
  | .ok (.queue actions) => BridgeExecutorBase.queue K now actions s
  | .ok (.write own event) => .ok { s.emit event with own }

/-- The functions that make no outgoing call; `none` for the other two. -/
def plain (now : UInt256) (msg : Msg) (s : State H X) :
    Fn Φ → Option (Except Error (State H X))
  | .execute _ => none
  | .executeDelegateCall _ _ => none
  | .cancel id => some <| nonPayable msg <| BridgeExecutorBase.cancel K now msg.sender id s
  | .updateGuardian guardian =>
    some <| nonPayable msg <| BridgeExecutorBase.updateGuardian this msg.sender guardian s
  | .updateDelay delay =>
    some <| nonPayable msg <| BridgeExecutorBase.updateDelay this msg.sender delay s
  | .updateGracePeriod gracePeriod =>
    some <| nonPayable msg <|
      BridgeExecutorBase.updateGracePeriod this msg.sender gracePeriod s
  | .updateMinimumDelay minimumDelay =>
    some <| nonPayable msg <|
      BridgeExecutorBase.updateMinimumDelay this msg.sender minimumDelay s
  | .updateMaximumDelay maximumDelay =>
    some <| nonPayable msg <|
      BridgeExecutorBase.updateMaximumDelay this msg.sender maximumDelay s
  | .receiveFunds => some <| .ok (s.receive this msg)
  | .own f => some <| nonPayable msg <| own K child this now msg f s

/-- A message to the executor. -/
def external (now : UInt256) (m : Message Φ) (s : State H X) : Program H X Unit :=
  match m.fn with
  | .execute id => BridgeExecutorBase.execute K this now m.sender id (s.receive this m.toMsg)
  | .executeDelegateCall target data =>
    (BridgeExecutorBase.executeDelegateCall this m.sender m.value target data
      (s.receive this m.toMsg)).bind fun s' _ => .done s' ()
  | fn =>
    match plain K child this now m.toMsg s fn with
    | none => .fail .rejected
    | some r => .ofExcept r

/-- The value of a call leaves the executor, unless it is sent to the executor itself. -/
def issue (q : OutCall) (s : State H X) : State H X :=
  if q.delegate ∨ q.target = this then s else s.setBalance (s.balance - q.value.toNat)

/-- The address at which the code called runs. -/
def runsAt (q : OutCall) : Address := if q.delegate then this else q.target

/-- What code running at `a` can do to the executor without calling it.  At the executor's own
address it can also log what it likes. -/
inductive Drifts : Address → State H X → State H X → Prop where
  | balance {a s b} : s.balance ≤ b ∨ a = this → Drifts a s (s.setBalance b)
  | log {s topics data} : Drifts this s (s.emit (.delegated topics data))

/-- The executor at the address `this`. -/
def executor : Contract Address UInt256 (Message Φ) (State H X) OutCall (List UInt8) Error where
  this := this
  sender m := m.sender
  entry := external K child this
  issue := issue this
  runsAt := runsAt this
  drifts := Drifts this

end

/-- A successful construction, at any time and with any balance. -/
def Constructed (_ : UInt256) (s : State H X) : Prop :=
  ∃ delay gracePeriod minimumDelay maximumDelay guardian own balance,
    BridgeExecutorBase.construct delay gracePeriod minimumDelay maximumDelay guardian own balance
      = .ok s

end BridgeExecutor
