import BridgeExecutor.Lib.Words
import Mathlib.Data.List.Basic

/-!
# The data of the executors

The structs, events and errors of `IExecutorBase`, `IL2BridgeExecutor` and
`PolygonBridgeExecutor`, and the storage of `BridgeExecutorBase`.

`uint256` and `address` are bit vectors.  Ids and the counter of sets are `Nat`: the counter
starts at zero and grows by one with a queued set, so it would take 2^256 of them to wrap.
-/

namespace BridgeExecutor

abbrev Address := BitVec 160
abbrev UInt256 := BitVec 256

/-- A `bytes` or `string` value.  The ABI decoder rejects longer ones. -/
structure Bytes where
  data : List UInt8
  small : data.length < 2 ^ 64
deriving DecidableEq

theorem Bytes.ext {a b : Bytes} (h : a.data = b.data) : a = b := by
  cases a; cases b; cases h; rfl

def Bytes.empty : Bytes := ⟨[], by decide⟩

/-- One action of a set. -/
structure Action where
  target : Address
  value : UInt256
  signature : Bytes
  calldata : Bytes
  withDelegatecall : Bool
deriving DecidableEq

/-- The five parallel arrays that describe the actions of a set. -/
structure Actions where
  targets : List Address := []
  values : List UInt256 := []
  signatures : List Bytes := []
  calldatas : List Bytes := []
  withDelegatecalls : List Bool := []
deriving DecidableEq

namespace Actions

/-- The arrays at index `i`; `none` if one of them is too short. -/
def action? (a : Actions) (i : Nat) : Option Action :=
  match a.targets[i]?, a.values[i]?, a.signatures[i]?, a.calldatas[i]?,
    a.withDelegatecalls[i]? with
  | some target, some value, some signature, some calldata, some withDelegatecall =>
    some ⟨target, value, signature, calldata, withDelegatecall⟩
  | _, _, _, _, _ => none

end Actions

/-- `ActionsSet`.  The default values are those of a slot that was never written. -/
structure ActionsSet extends Actions where
  executionTime : UInt256 := 0
  executed : Bool := false
  canceled : Bool := false
deriving DecidableEq

/-- Neither executed nor canceled. -/
def ActionsSet.Live (a : ActionsSet) : Prop := a.executed = false ∧ a.canceled = false

instance (a : ActionsSet) : Decidable a.Live := inferInstanceAs (Decidable (_ ∧ _))

inductive ActionsSetState where
  | queued
  | executed
  | canceled
  | expired
deriving DecidableEq, Repr

inductive Event where
  | actionsSetQueued (id : Nat) (actions : Actions) (executionTime : UInt256)
  | actionsSetExecuted (id : Nat) (initiatorExecution : Address)
      (returnedData : List (List UInt8))
  | actionsSetCanceled (id : Nat)
  | guardianUpdate (oldGuardian newGuardian : Address)
  | delayUpdate (oldDelay newDelay : UInt256)
  | gracePeriodUpdate (oldGracePeriod newGracePeriod : UInt256)
  | minimumDelayUpdate (oldMinimumDelay newMinimumDelay : UInt256)
  | maximumDelayUpdate (oldMaximumDelay newMaximumDelay : UInt256)
  | ethereumGovernanceExecutorUpdate (oldExecutor newExecutor : Address)
  | fxRootSenderUpdate (oldFxRootSender newFxRootSender : Address)
  | fxChildUpdate (oldFxChild newFxChild : Address)
  /-- A log of code that the executor has delegatecalled, whatever it looks like. -/
  | delegated (topics : List UInt256) (data : List UInt8)
deriving DecidableEq

inductive Error where
  | invalidInitParams
  | notGuardian
  | onlyCallableByThis
  | minimumDelayTooLong
  | maximumDelayTooShort
  | gracePeriodTooShort
  | delayShorterThanMin
  | delayLongerThanMax
  | onlyQueuedActions
  | timelockNotFinished
  | invalidActionsSetId
  | emptyTargets
  | inconsistentParamsLength
  | duplicateAction
  | insufficientBalance
  | failedActionExecution
  | unauthorizedEthereumExecutor
  | unauthorizedChildOrigin
  | unauthorizedRootOrigin
  /-- `Panic(0x11)`, a checked addition. -/
  | panicOverflow
  /-- `Panic(0x32)`, an index out of range. -/
  | panicIndex
  /-- The revert data of a callee, passed on. -/
  | bubbled (data : List UInt8)
  /-- A check the compiler puts in: value sent to a function that is not payable, or call data
  that does not decode. -/
  | rejected
deriving DecidableEq

/-- The checked addition of Solidity 0.8. -/
def checkedAdd (x y : UInt256) : Except Error UInt256 :=
  if x.toNat + y.toNat < 2 ^ 256 then .ok (x + y) else .error .panicOverflow

theorem toNat_add_of_lt {x y : UInt256} (h : x.toNat + y.toNat < 2 ^ 256) :
    (x + y).toNat = x.toNat + y.toNat := by
  rw [BitVec.toNat_add, Nat.mod_eq_of_lt h]

theorem checkedAdd_eq_ok {x y z : UInt256} :
    checkedAdd x y = .ok z ↔ x.toNat + y.toNat < 2 ^ 256 ∧ z = x + y := by
  unfold checkedAdd
  split
  · next h => exact ⟨fun hz => ⟨h, (Except.ok.inj hz).symm⟩, fun hz => by rw [hz.2]⟩
  · next h => exact ⟨nofun, fun hz => absurd hz.1 h⟩

theorem checkedAdd_of_lt {x y : UInt256} (h : x.toNat + y.toNat < 2 ^ 256) :
    checkedAdd x y = .ok (x + y) := checkedAdd_eq_ok.mpr ⟨h, rfl⟩

theorem checkedAdd_of_not_lt {x y : UInt256} (h : ¬ x.toNat + y.toNat < 2 ^ 256) :
    checkedAdd x y = .error .panicOverflow := if_neg h

/-- The storage of `BridgeExecutorBase`, with `own` for the storage of the inheriting contract,
its balance, and the logs of its address.  `H` is the type of hashes. -/
structure State (H X : Type) where
  delay : UInt256
  gracePeriod : UInt256
  minimumDelay : UInt256
  maximumDelay : UInt256
  guardian : Address
  actionsSetCounter : Nat
  actionsSets : Nat → ActionsSet
  queuedActions : H → Bool
  own : X
  balance : Nat
  logs : List Event

namespace State

variable {H X : Type}

def emit (s : State H X) (e : Event) : State H X := { s with logs := s.logs ++ [e] }

def setBalance (s : State H X) (b : Nat) : State H X := { s with balance := b }

def setFlags (s : State H X) (f : H → Bool) : State H X := { s with queuedActions := f }

def setActionsSet (s : State H X) (id : Nat) (a : ActionsSet) : State H X :=
  { s with actionsSets := Function.update s.actionsSets id a }

/-! ## The internal setters -/

def updateGuardian (s : State H X) (guardian : Address) : State H X :=
  { s.emit (.guardianUpdate s.guardian guardian) with guardian }

def updateDelay (s : State H X) (delay : UInt256) : State H X :=
  { s.emit (.delayUpdate s.delay delay) with delay }

def updateGracePeriod (s : State H X) (gracePeriod : UInt256) : State H X :=
  { s.emit (.gracePeriodUpdate s.gracePeriod gracePeriod) with gracePeriod }

def updateMinimumDelay (s : State H X) (minimumDelay : UInt256) : State H X :=
  { s.emit (.minimumDelayUpdate s.minimumDelay minimumDelay) with minimumDelay }

def updateMaximumDelay (s : State H X) (maximumDelay : UInt256) : State H X :=
  { s.emit (.maximumDelayUpdate s.maximumDelay maximumDelay) with maximumDelay }

end State

/-! ## Hashes -/

/-- `keccak256` with digests of type `H`, and the first four bytes of a digest. -/
structure Keccak (H : Type) where
  hash : List UInt8 → H
  bytes4 : H → List UInt8

/-- `abi.encode(target, value, signature, data, executionTime, withDelegatecall)`: six head
words, the third and fourth being the offsets of the two tails. -/
def abiEncode (a : Action) (executionTime : UInt256) : List UInt8 :=
  Words.word a.target.toNat ++ (Words.word a.value.toNat ++ (Words.word 192 ++
    (Words.word (192 + (Words.tail a.signature.data).length) ++
      (Words.word executionTime.toNat ++ (Words.word a.withDelegatecall.toNat ++
        (Words.tail a.signature.data ++ Words.tail a.calldata.data))))))

/-- The key of an action in `_queuedActions`. -/
def Keccak.actionHash {H : Type} (K : Keccak H) (a : Action) (executionTime : UInt256) : H :=
  K.hash (abiEncode a executionTime)

/-- `keccak256` has no collision on the preimages the executor hashes. -/
def Keccak.CollisionFree {H : Type} (K : Keccak H) : Prop :=
  ∀ a t a' t', K.actionHash a t = K.actionHash a' t' → a = a' ∧ t = t'

/-- The encoding is injective: its head words and its tails are peeled off one by one. -/
theorem abiEncode_inj {a a' : Action} {t t' : UInt256} (h : abiEncode a t = abiEncode a' t') :
    a = a' ∧ t = t' := by
  have hword (x : UInt256) : x.toNat < 2 ^ 256 := x.isLt
  have haddress (x : Address) : x.toNat < 2 ^ 256 := Nat.lt_of_lt_of_le x.isLt (by decide)
  have hbool (b : Bool) : b.toNat < 2 ^ 256 := Nat.lt_of_lt_of_le b.toNat_lt (by decide)
  have hbytes (b : Bytes) : b.data.length < 2 ^ 256 := Nat.lt_of_lt_of_le b.small (by decide)
  have hboolinj (b c : Bool) (hbc : b.toNat = c.toNat) : b = c := by
    cases b <;> cases c <;> first | rfl | cases hbc
  have htail (b : Bytes) : 192 + (Words.tail b.data).length < 2 ^ 256 := by
    have hlen := Words.length_tail_le b.data
    have hsmall := b.small
    omega
  unfold abiEncode at h
  obtain ⟨htarget, h⟩ := Words.word_append_inj (haddress _) (haddress _) h
  obtain ⟨hvalue, h⟩ := Words.word_append_inj (hword _) (hword _) h
  obtain ⟨-, h⟩ := Words.word_append_inj (by decide) (by decide) h
  obtain ⟨-, h⟩ := Words.word_append_inj (htail _) (htail _) h
  obtain ⟨htime, h⟩ := Words.word_append_inj (hword _) (hword _) h
  obtain ⟨hdelegate, h⟩ := Words.word_append_inj (hbool _) (hbool _) h
  obtain ⟨hsignature, h⟩ := Words.tail_append_inj (hbytes _) (hbytes _) h
  rw [← List.append_nil (Words.tail a.calldata.data),
    ← List.append_nil (Words.tail a'.calldata.data)] at h
  obtain ⟨hcalldata, -⟩ := Words.tail_append_inj (hbytes _) (hbytes _) h
  refine ⟨?_, BitVec.eq_of_toNat_eq htime⟩
  cases a
  cases a'
  rw [Action.mk.injEq]
  exact ⟨BitVec.eq_of_toNat_eq htarget, BitVec.eq_of_toNat_eq hvalue, Bytes.ext hsignature,
    Bytes.ext hcalldata, hboolinj _ _ hdelegate⟩

/-- **The preimage of an action hash determines all six fields.** -/
theorem abiEncode_eq_iff {a a' : Action} {t t' : UInt256} :
    abiEncode a t = abiEncode a' t' ↔ a.target = a'.target ∧ a.value = a'.value ∧
      a.signature = a'.signature ∧ a.calldata = a'.calldata ∧ t = t' ∧
      a.withDelegatecall = a'.withDelegatecall := by
  constructor
  · intro h
    obtain ⟨rfl, rfl⟩ := abiEncode_inj h
    exact ⟨rfl, rfl, rfl, rfl, rfl, rfl⟩
  · rintro ⟨htarget, hvalue, hsignature, hcalldata, htime, hdelegate⟩
    rw [abiEncode, abiEncode, htarget, hvalue, hsignature, hcalldata, htime, hdelegate]

/-- It is enough that the hash function itself has no collision. -/
theorem Keccak.collisionFree_of_injective {H : Type} {K : Keccak H}
    (hinj : ∀ x y, K.hash x = K.hash y → x = y) : K.CollisionFree :=
  fun _ _ _ _ h => abiEncode_inj (hinj _ _ h)

end BridgeExecutor
