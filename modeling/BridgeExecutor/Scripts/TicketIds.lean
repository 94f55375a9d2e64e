import BridgeExecutor.Contracts.Encoding
import BridgeExecutor.Scripts.Arbitrum

/-!
# The task `arbitrum:get-ticket-id`

From the logs of a transaction on Ethereum the script picks the events of the bridge and of the
inbox, puts them together by message number, and prints the id of each ticket.

The interfaces of the two contracts come from the generated factories; of an interface only
`parseLog` is used here.
-/

namespace BridgeExecutor

/-- A log, as far as the script looks at it; `payload` is what `parseLog` reads. -/
structure Log (H : Type) where
  topics : List H
  payload : Text

/-- `args` of a `MessageDelivered` event, as far as they are used. -/
structure MessageDelivered where
  messageIndex : BigNumber
  sender : Text
  baseFeeL1 : BigNumber
deriving DecidableEq

/-- `args` of an `InboxMessageDelivered` event. -/
structure InboxMessageDelivered where
  messageNum : BigNumber
  data : Text
deriving DecidableEq

structure L1ToL2Message where
  inboxMessageDeliveredEvent : InboxMessageDelivered
  messageDeliveredEvent : MessageDelivered
deriving DecidableEq

inductive ScriptError where
  /-- An exception of the package. -/
  | ethers
  /-- `Unexpected missing event for message index: …`, with the events of the inbox. -/
  | missingEvent (messageIndex : BigNumber) (imdEvents : List InboxMessageDelivered)
deriving DecidableEq

/-- A value of the package; `none` is an exception. -/
def ofEthers {α : Type} : Option α → Except ScriptError α
  | none => .error .ethers
  | some x => .ok x

variable {H : Type} [DecidableEq H]

/-- The logs whose first topic is that of the event, parsed. -/
def getEvents {α : Type} (parseLog : Log H → Option α) (topic : H) :
    List (Log H) → Except ScriptError (List α)
  | [] => .ok []
  | log :: logs =>
    if log.topics.head? = some topic then
      match ofEthers (parseLog log), getEvents parseLog topic logs with
      | .error e, _ => .error e
      | .ok _, .error e => .error e
      | .ok event, .ok events => .ok (event :: events)
    else getEvents parseLog topic logs

/-- `parseLog` of the interfaces of `IBridge` and `IInbox`. -/
structure Interfaces (H : Type) where
  bridge : Log H → Option MessageDelivered
  inbox : Log H → Option InboxMessageDelivered

def messageDeliveredTopic (K : Keccak H) : H :=
  K.hash (ascii "MessageDelivered(uint256,bytes32,address,uint8,address,bytes32,uint256,uint64)")

def inboxMessageDeliveredTopic (K : Keccak H) : H :=
  K.hash (ascii "InboxMessageDelivered(uint256,bytes)")

/-- The loop of `getL1ToL2Messages`: the first event of the inbox with the number is taken. -/
def matchEvents (imdEvents : List InboxMessageDelivered) :
    List MessageDelivered → Except ScriptError (List L1ToL2Message)
  | [] => .ok []
  | messageDelivered :: mdEvents =>
    match (imdEvents.filter fun i => i.messageNum = messageDelivered.messageIndex)[0]? with
    | none => .error (.missingEvent messageDelivered.messageIndex imdEvents)
    | some imd =>
      match matchEvents imdEvents mdEvents with
      | .error e => .error e
      | .ok messages => .ok (⟨imd, messageDelivered⟩ :: messages)

def getL1ToL2Messages (I : Interfaces H) (K : Keccak H) (logs : List (Log H)) :
    Except ScriptError (List L1ToL2Message) :=
  match getEvents I.bridge (messageDeliveredTopic K) logs with
  | .error e => .error e
  | .ok mdEvents =>
    match getEvents I.inbox (inboxMessageDeliveredTopic K) logs with
    | .error e => .error e
    | .ok imdEvents => matchEvents imdEvents mdEvents

/-- The body of the loop of the task: the index and the id that are printed. -/
def ticketId (E : Ethers) (K : Keccak H) (chainId : Nat) (message : L1ToL2Message) :
    Option (BigNumber × H) :=
  (parseInboxMessageDataField E message.inboxMessageDeliveredEvent.data).bind fun parsedData =>
    (calculateSubmitRetryableId E K chainId message.messageDeliveredEvent.sender
      message.messageDeliveredEvent.messageIndex message.messageDeliveredEvent.baseFeeL1
      parsedData).map fun id => (message.messageDeliveredEvent.messageIndex, id)

/-- The loop of the task: the lines it prints, and the exception that it ends with, if any. -/
def printTicketIds (E : Ethers) (K : Keccak H) (chainId : Nat) :
    List L1ToL2Message → List (BigNumber × H) × Option ScriptError
  | [] => ([], none)
  | message :: messages =>
    match ticketId E K chainId message with
    | none => ([], some .ethers)
    | some line =>
      let rest := printTicketIds E K chainId messages
      (line :: rest.1, rest.2)

/-- `arbitrum:get-ticket-id`, on the logs of the receipt. -/
def getTicketId (E : Ethers) (I : Interfaces H) (K : Keccak H) (chainId : Nat)
    (logs : List (Log H)) : List (BigNumber × H) × Option ScriptError :=
  match getL1ToL2Messages I K logs with
  | .error e => ([], some e)
  | .ok messages => printTicketIds E K chainId messages

end BridgeExecutor
