import BridgeExecutor.Contracts.FxPortal
import BridgeExecutor.Contracts.CustomPolygonMapping
import BridgeExecutor.System

/-!
# The bridge to Polygon

`FxRoot`, the state sender, `FxChild` and an executor, linked to one another.  The state sender
calls `FxChild` at once, so a message is delivered within the call that sends it, or the whole
call reverts.
-/

namespace BridgeExecutor

open Reentrant

/-- A deployment: where the contracts are, how the other accounts answer, and what the errors of
the contracts look like to a caller. -/
structure PolygonBridge where
  fxRoot : Address
  mapping : Address
  fxChild : Address
  executor : Address
  elsewhere : OutCall → Bool × List UInt8
  revertData : Revert → List UInt8
  errorData : Error → List UInt8

namespace PolygonBridge

variable {H : Type} [DecidableEq H] (B : PolygonBridge) (K : Keccak H) (now : UInt256)

/-- The message with which `FxChild` calls the executor. -/
def executorMessage (value stateId : UInt256) (rootMessageSender : Address) (data : Bytes) :
    Message PolygonFn where
  sender := B.fxChild
  value := value
  xDomainMessageSender := .error []
  fn := .own (.processMessageFromRoot stateId rootMessageSender data)

/-- The executor, called by `FxChild`. -/
def executorAnswers : OutCall → State H PolygonStorage × Unit →
    Bool × List UInt8 × (State H PolygonStorage × Unit) :=
  answers B.elsewhere B.executor (processMessageFromRootMethod K) B.errorData
    (fun _ _ r => (false, [], r))
    fun value (stateId, rootMessageSender, data, ()) =>
      external K (polygonBridgeExecutor decodeActions) B.executor now
        (B.executorMessage value stateId rootMessageSender data)

/-- `FxChild`, called by the state sender. -/
def fxChildAnswers : OutCall → FxChildStorage × State H PolygonStorage × Unit →
    Bool × List UInt8 × (FxChildStorage × State H PolygonStorage × Unit) :=
  answers B.elsewhere B.fxChild (onStateReceiveMethod K) B.revertData
    (fun _ => B.executorAnswers K now)
    fun value (stateId, data, ()) =>
      (BridgeExecutor.fxChild K B.fxChild).entry now
        ⟨B.mapping, value, .onStateReceive stateId data⟩

/-- The state sender, called by `FxRoot`. -/
def mappingAnswers :
    OutCall → MappingStorage × FxChildStorage × State H PolygonStorage × Unit →
    Bool × List UInt8 × (MappingStorage × FxChildStorage × State H PolygonStorage × Unit) :=
  answers B.elsewhere B.mapping (syncStateMethod K) B.revertData
    (fun _ => B.fxChildAnswers K now)
    fun value (receiver, data, ()) =>
      (customPolygonMapping K B.mapping).entry now ⟨B.fxRoot, value, .syncState receiver data⟩

/-- A transaction of `sender` that sends a message through `FxRoot`. -/
def sendMessageToChild (sender receiver : Address) (data : Bytes) (s : FxRootStorage)
    (w : MappingStorage × FxChildStorage × State H PolygonStorage × Unit) :
    Except Revert (FxRootStorage × Unit ×
      (MappingStorage × FxChildStorage × State H PolygonStorage × Unit)) :=
  ((BridgeExecutor.fxRoot K B.fxRoot).entry now
    ⟨sender, 0, .sendMessageToChild receiver data⟩ s).run
      (fun _ => B.mappingAnswers K now) w

/-- A transaction of `sender` that calls `FxChild`. -/
def onStateReceive (sender : Address) (stateId : UInt256) (data : Bytes) (s : FxChildStorage)
    (w : State H PolygonStorage × Unit) :
    Except Revert (FxChildStorage × Unit × (State H PolygonStorage × Unit)) :=
  ((BridgeExecutor.fxChild K B.fxChild).entry now ⟨sender, 0, .onStateReceive stateId data⟩ s).run
    (fun _ => B.executorAnswers K now) w

/-- `FxRoot` was given the state sender and `FxChild`. -/
structure Wired (s : FxRootStorage) : Prop where
  stateSender : s.stateSender = B.mapping
  fxChild : s.fxChild = B.fxChild

end PolygonBridge

end BridgeExecutor
