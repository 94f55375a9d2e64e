import BridgeExecutor.Types
import BridgeExecutor.Reentrant.Prog

/-!
# `BridgeExecutorBase`

The functions of the abstract contract, under their names.
A function that makes no outgoing call maps a state to a new state or to the error it reverts
with; the machine restores the old state in the second case.
`execute` and `executeDelegateCall` hand control to other code and are `Prog`s.

`_queue` and `_executeTransaction` are written here as `queue` and `executeTransaction`; the
external function `queue` belongs to the contracts that inherit.
-/

namespace BridgeExecutor

open Reentrant

/-- The outgoing calls: a call or a delegatecall, its target, the `msg.value` and the data that
the code called sees. -/
structure OutCall where
  delegate : Bool
  target : Address
  value : UInt256
  callData : List UInt8
deriving DecidableEq, Repr

/-- A program over the executor's state. -/
abbrev Program (H X α : Type) := Prog (State H X) OutCall (List UInt8) Error α

namespace BridgeExecutorBase

variable {H X : Type}

/-- `MINIMUM_GRACE_PERIOD`, 10 minutes. -/
def minimumGracePeriod : UInt256 := 600

/-- `modifier onlyThis` -/
def onlyThis {α : Type} (this sender : Address) (body : Except Error α) : Except Error α :=
  if sender ≠ this then .error .onlyCallableByThis else body

/-- `modifier onlyGuardian` -/
def onlyGuardian {α : Type} (s : State H X) (sender : Address) (body : Except Error α) :
    Except Error α :=
  if sender ≠ s.guardian then .error .notGuardian else body

/-- Storage before the constructor runs. -/
def blank (own : X) (balance : Nat) : State H X where
  delay := 0
  gracePeriod := 0
  minimumDelay := 0
  maximumDelay := 0
  guardian := 0
  actionsSetCounter := 0
  actionsSets := fun _ => {}
  queuedActions := fun _ => false
  own := own
  balance := balance
  logs := []

/-- The constructor.  `own` is what the inheriting contract's constructor writes. -/
def construct (delay gracePeriod minimumDelay maximumDelay : UInt256) (guardian : Address)
    (own : X) (balance : Nat) : Except Error (State H X) :=
  if gracePeriod < minimumGracePeriod ∨ minimumDelay ≥ maximumDelay ∨ delay < minimumDelay ∨
      delay > maximumDelay then
    .error .invalidInitParams
  else
    .ok <| (((((blank own balance).updateDelay delay).updateGracePeriod
      gracePeriod).updateMinimumDelay minimumDelay).updateMaximumDelay
        maximumDelay).updateGuardian guardian

def validateDelay (s : State H X) (delay : UInt256) : Except Error Unit :=
  if delay < s.minimumDelay then .error .delayShorterThanMin
  else if delay > s.maximumDelay then .error .delayLongerThanMax
  else .ok ()

/-! ## The update functions -/

def updateGuardian (this sender guardian : Address) (s : State H X) : Except Error (State H X) :=
  onlyThis this sender <| .ok (s.updateGuardian guardian)

def updateDelay (this sender : Address) (delay : UInt256) (s : State H X) :
    Except Error (State H X) :=
  onlyThis this sender <|
    match validateDelay s delay with
    | .error e => .error e
    | .ok () => .ok (s.updateDelay delay)

def updateGracePeriod (this sender : Address) (gracePeriod : UInt256) (s : State H X) :
    Except Error (State H X) :=
  onlyThis this sender <|
    if gracePeriod < minimumGracePeriod then .error .gracePeriodTooShort
    else .ok (s.updateGracePeriod gracePeriod)

/-- Writes first; the delay in force is validated against the new bound afterwards. -/
def updateMinimumDelay (this sender : Address) (minimumDelay : UInt256) (s : State H X) :
    Except Error (State H X) :=
  onlyThis this sender <|
    if minimumDelay ≥ s.maximumDelay then .error .minimumDelayTooLong
    else
      match validateDelay (s.updateMinimumDelay minimumDelay) s.delay with
      | .error e => .error e
      | .ok () => .ok (s.updateMinimumDelay minimumDelay)

def updateMaximumDelay (this sender : Address) (maximumDelay : UInt256) (s : State H X) :
    Except Error (State H X) :=
  onlyThis this sender <|
    if maximumDelay ≤ s.minimumDelay then .error .maximumDelayTooShort
    else
      match validateDelay (s.updateMaximumDelay maximumDelay) s.delay with
      | .error e => .error e
      | .ok () => .ok (s.updateMaximumDelay maximumDelay)

/-! ## Views -/

def getActionsSetById (s : State H X) (actionsSetId : Nat) : ActionsSet :=
  s.actionsSets actionsSetId

def isActionQueued (s : State H X) (actionHash : H) : Bool := s.queuedActions actionHash

def getCurrentState (now : UInt256) (s : State H X) (actionsSetId : Nat) :
    Except Error ActionsSetState :=
  if s.actionsSetCounter ≤ actionsSetId then .error .invalidActionsSetId
  else if (s.actionsSets actionsSetId).canceled then .ok .canceled
  else if (s.actionsSets actionsSetId).executed then .ok .executed
  else
    match checkedAdd (s.actionsSets actionsSetId).executionTime s.gracePeriod with
    | .error e => .error e
    | .ok expiry => if now > expiry then .ok .expired else .ok .queued

/-- The first check of `execute` and of `cancel`. -/
def requireQueued (now : UInt256) (s : State H X) (actionsSetId : Nat) : Except Error Unit :=
  match getCurrentState now s actionsSetId with
  | .error e => .error e
  | .ok .queued => .ok ()
  | .ok _ => .error .onlyQueuedActions

/-- Both guards of `execute`. -/
def requireExecutable (now : UInt256) (s : State H X) (actionsSetId : Nat) :
    Except Error Unit :=
  match requireQueued now s actionsSetId with
  | .error e => .error e
  | .ok () =>
    if now < (s.actionsSets actionsSetId).executionTime then .error .timelockNotFinished
    else .ok ()

section

variable [DecidableEq H] (K : Keccak H)

/-! ## `_queue` -/

/-- The loop of `_queue` from index `i`, with `n` actions to go, over the flags alone. -/
def queueLoop (a : Actions) (executionTime : UInt256) : Nat → Nat → (H → Bool) →
    Except Error (H → Bool)
  | 0, _, flags => .ok flags
  | n + 1, i, flags =>
    match a.action? i with
    | none => .error .panicIndex
    | some action =>
      if flags (K.actionHash action executionTime) then .error .duplicateAction
      else
        queueLoop a executionTime n (i + 1)
          (Function.update flags (K.actionHash action executionTime) true)

/-- `_queue`.  The slot keeps its `executed` and `canceled`. -/
def queue (now : UInt256) (a : Actions) (s : State H X) : Except Error (State H X) :=
  if a.targets.length = 0 then .error .emptyTargets
  else if a.targets.length ≠ a.values.length ∨ a.targets.length ≠ a.signatures.length ∨
      a.targets.length ≠ a.calldatas.length ∨
      a.targets.length ≠ a.withDelegatecalls.length then
    .error .inconsistentParamsLength
  else
    match checkedAdd now s.delay with
    | .error e => .error e
    | .ok executionTime =>
      match queueLoop K a executionTime a.targets.length 0 s.queuedActions with
      | .error e => .error e
      | .ok flags =>
        .ok <| ({ (s.setFlags flags) with actionsSetCounter := s.actionsSetCounter + 1 }
          |>.setActionsSet s.actionsSetCounter
            { s.actionsSets s.actionsSetCounter with toActions := a, executionTime }).emit
          (.actionsSetQueued s.actionsSetCounter a executionTime)

/-! ## `cancel` -/

/-- The loop of `cancel`: `_cancelTransaction` for every action from index `i` on. -/
def cancelLoop (a : ActionsSet) : Nat → Nat → (H → Bool) → Except Error (H → Bool)
  | 0, _, flags => .ok flags
  | n + 1, i, flags =>
    match a.action? i with
    | none => .error .panicIndex
    | some action =>
      cancelLoop a n (i + 1) (Function.update flags (K.actionHash action a.executionTime) false)

def cancel (now : UInt256) (sender : Address) (actionsSetId : Nat) (s : State H X) :
    Except Error (State H X) :=
  onlyGuardian s sender <|
    match requireQueued now s actionsSetId with
    | .error e => .error e
    | .ok () =>
      let actionsSet := { s.actionsSets actionsSetId with canceled := true }
      match cancelLoop K actionsSet actionsSet.targets.length 0 s.queuedActions with
      | .error e => .error e
      | .ok flags =>
        .ok <| ((s.setActionsSet actionsSetId actionsSet).setFlags flags).emit
          (.actionsSetCanceled actionsSetId)

/-! ## `execute` -/

/-- `executeDelegateCall`.  The value sent along is the `msg.value` the delegatecalled code
sees; the failing of the delegatecall is returned, not passed on. -/
def executeDelegateCall (this sender : Address) (value : UInt256) (target : Address)
    (data : List UInt8) (s : State H X) : Program H X (Bool × List UInt8) :=
  if sender ≠ this then .fail .onlyCallableByThis
  else .call s ⟨true, target, value, data⟩ fun s' success resultData =>
    .done s' (success, resultData)

/-- `_verifyCallResult` -/
def verifyCallResult (success : Bool) (returnData : List UInt8) : Except Error (List UInt8) :=
  if success then .ok returnData
  else if returnData.length > 0 then .error (.bubbled returnData)
  else .error .failedActionExecution

/-- What is sent to the target of an action: its call data, behind a selector if the action has
a signature. -/
def callDataOf (signature data : Bytes) : List UInt8 :=
  if signature.data.length = 0 then data.data
  else K.bytes4 (K.hash signature.data) ++ data.data

/-- `_executeTransaction` -/
def executeTransaction (this : Address) (a : Action) (executionTime : UInt256)
    (s : State H X) : Program H X (List UInt8) :=
  if s.balance < a.value.toNat then .fail .insufficientBalance
  else
    let s := s.setFlags
      (Function.update s.queuedActions (K.actionHash a executionTime) false)
    let callData := callDataOf K a.signature a.calldata
    let result : Program H X (Bool × List UInt8) :=
      if a.withDelegatecall then
        -- `this.executeDelegateCall{value: value}(target, callData)`
        executeDelegateCall this this a.value a.target callData s
      else
        .call s ⟨false, a.target, a.value, callData⟩ fun s' success resultData =>
          .done s' (success, resultData)
    result.bind fun s' r =>
      match verifyCallResult r.1 r.2 with
      | .error e => .fail e
      | .ok data => .done s' data

/-- The loop of `execute` from index `i`, with `n` actions to go.  Every iteration reads the set
from storage again; only the number of iterations was fixed at the start. -/
def executeLoop (this sender : Address) (actionsSetId : Nat) :
    Nat → Nat → List (List UInt8) → State H X → Program H X Unit
  | 0, _, returnedData, s =>
    .done (s.emit (.actionsSetExecuted actionsSetId sender returnedData)) ()
  | n + 1, i, returnedData, s =>
    match (s.actionsSets actionsSetId).action? i with
    | none => .fail .panicIndex
    | some action =>
      (executeTransaction K this action (s.actionsSets actionsSetId).executionTime s).bind
        fun s' result =>
          executeLoop this sender actionsSetId n (i + 1) (returnedData ++ [result]) s'

def execute (this : Address) (now : UInt256) (sender : Address) (actionsSetId : Nat)
    (s : State H X) : Program H X Unit :=
  match requireExecutable now s actionsSetId with
  | .error e => .fail e
  | .ok () =>
    executeLoop K this sender actionsSetId (s.actionsSets actionsSetId).targets.length 0 []
      (s.setActionsSet actionsSetId { s.actionsSets actionsSetId with executed := true })

end

end BridgeExecutorBase

end BridgeExecutor
