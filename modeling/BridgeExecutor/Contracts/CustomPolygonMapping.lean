import BridgeExecutor.Contracts.FxPortal

/-!
# `CustomPolygonMapping`

The state sender on Ethereum, with the relay to Polygon built in: `syncState` calls the receiver
at once.  The file brings its own `Ownable` and `SafeMath`.
-/

namespace BridgeExecutor

open Reentrant

/-! ## `SafeMath` -/

namespace SafeMath

def mul (a b : UInt256) : Option UInt256 :=
  if a = 0 then some 0
  else
    let c := a * b
    if c / a = b then some c else none

def div (a b : UInt256) : Option UInt256 := if b > 0 then some (a / b) else none

def sub (a b : UInt256) : Option UInt256 := if b ≤ a then some (a - b) else none

def add (a b : UInt256) : Option UInt256 :=
  let c := a + b
  if c ≥ a then some c else none

def mod (a b : UInt256) : Option UInt256 := if b ≠ 0 then some (a % b) else none

end SafeMath

/-! ## Storage -/

inductive MappingEvent where
  | ownershipTransferred (previousOwner newOwner : Address)
  | newRegistration (user sender receiver : Address)
  | registrationUpdated (user sender receiver : Address)
  | stateSynced (id : UInt256) (contractAddress : Address) (data : Bytes)
deriving DecidableEq

structure MappingStorage where
  owner : Address
  counter : UInt256
  registrations : Address → Address
  logs : List MappingEvent

namespace MappingStorage

def emit (s : MappingStorage) (e : MappingEvent) : MappingStorage :=
  { s with logs := s.logs ++ [e] }

def setOwner (s : MappingStorage) (owner : Address) : MappingStorage := { s with owner }

def setCounter (s : MappingStorage) (counter : UInt256) : MappingStorage := { s with counter }

def setRegistration (s : MappingStorage) (receiver sender : Address) : MappingStorage :=
  { s with registrations := Function.update s.registrations receiver sender }

end MappingStorage

/-! ## Functions -/

inductive MappingFn where
  | renounceOwnership
  | transferOwnership (newOwner : Address)
  | syncState (receiver : Address) (data : Bytes)
  | register (sender receiver : Address)

namespace CustomPolygonMapping

def construct (deployer : Address) : MappingStorage where
  owner := deployer
  counter := 0
  registrations := fun _ => 0
  logs := [.ownershipTransferred 0 deployer]

/-- `modifier onlyOwner` -/
def onlyOwner (sender : Address) (s : MappingStorage) (body : BridgeProgram MappingStorage) :
    BridgeProgram MappingStorage := if sender = s.owner then body else .fail .require

def renounceOwnership (sender : Address) (s : MappingStorage) : BridgeProgram MappingStorage :=
  onlyOwner sender s <| .done ((s.emit (.ownershipTransferred s.owner 0)).setOwner 0) ()

def transferOwnership (sender newOwner : Address) (s : MappingStorage) :
    BridgeProgram MappingStorage :=
  onlyOwner sender s <|
    if newOwner ≠ 0 then
      .done ((s.emit (.ownershipTransferred s.owner newOwner)).setOwner newOwner) ()
    else .fail .require

/-- `modifier onlyRegistered` -/
def onlyRegistered (sender receiver : Address) (s : MappingStorage)
    (body : BridgeProgram MappingStorage) : BridgeProgram MappingStorage :=
  if s.registrations receiver = sender then body else .fail (.reason "Invalid sender")

def syncState {H : Type} (K : Keccak H) (sender receiver : Address) (data : Bytes)
    (s : MappingStorage) : BridgeProgram MappingStorage :=
  onlyRegistered sender receiver s <|
    match SafeMath.add s.counter 1 with
    | none => .fail .require
    | some counter =>
      .call ((s.setCounter counter).emit (.stateSynced counter receiver data))
        ⟨false, receiver, 0, (onStateReceiveMethod K).callData (counter, data, ())⟩
        fun s' success _ =>
          if success then .done s' ()
          else .fail (.reason "FAILED_ACTION_EXECUTION_CUSTOM_MAPPING")

/-- The registration is written before it is compared with zero. -/
def register (user sender receiver : Address) (s : MappingStorage) :
    BridgeProgram MappingStorage :=
  if user = s.owner ∨ s.registrations receiver = user then
    let s := s.setRegistration receiver sender
    if s.registrations receiver = 0 then .done (s.emit (.newRegistration user sender receiver)) ()
    else .done (s.emit (.registrationUpdated user sender receiver)) ()
  else .fail (.reason "StateSender.register: Not authorized to register")

def entry {H : Type} (K : Keccak H) (user : Address) :
    MappingFn → MappingStorage → BridgeProgram MappingStorage
  | .renounceOwnership => renounceOwnership user
  | .transferOwnership newOwner => transferOwnership user newOwner
  | .syncState receiver data => syncState K user receiver data
  | .register sender receiver => register user sender receiver

end CustomPolygonMapping

def customPolygonMapping {H : Type} (K : Keccak H) (this : Address) :
    Contract Address UInt256 (Request MappingFn) MappingStorage OutCall (List UInt8) Revert :=
  bridgeContract OutCall.target this (CustomPolygonMapping.entry K)

end BridgeExecutor
