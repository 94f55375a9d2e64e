import BridgeExecutor.Contracts.Inheriting
import BridgeExecutor.Lib.Abi

/-!
# What the contracts encode and decode

The types that cross a call, in the ABI: the five arrays of a set, the message that `FxRoot`
wraps around them, and the parameters of the functions they are handed to.

* `decodeActions_reads` — what the five arrays are read from
* `abiEncode_eq_encode` — the preimage of an action hash is an ordinary tuple
-/

namespace BridgeExecutor

open Abi

/-! ## Codecs -/

abbrev addressCodec : Codec Address := .uint 160

abbrev uint256Codec : Codec UInt256 := .uint 256

/-- `bytes` and `string` -/
def bytesCodec : Codec Bytes :=
  Codec.bytes.via (fun b => ⟨b.val, b.property⟩) fun b => ⟨b.data, b.small⟩

theorem address_reads (x : Address) : addressCodec.Reads x := Codec.uint_reads (by decide) x

theorem uint256_reads (x : UInt256) : uint256Codec.Reads x := Codec.uint_reads (by decide) x

theorem bytes_reads (x : Bytes) : bytesCodec.Reads x := Codec.via_reads (Codec.bytes_reads _) rfl

/-! ## The five arrays -/

/-- `(address[], uint256[], string[], bytes[], bool[])` -/
def actionsFields : Fields Actions :=
  (Fields.cons addressCodec.array <| .cons uint256Codec.array <| .cons bytesCodec.array <|
    .cons bytesCodec.array <| .cons Codec.bool.array .nil).via
    (fun x => ⟨x.1, x.2.1, x.2.2.1, x.2.2.2.1, x.2.2.2.2.1⟩)
    fun a => (a.targets, a.values, a.signatures, a.calldatas, a.withDelegatecalls, ())

namespace Actions

/-- `abi.encode` of the five arrays. -/
def encode (a : Actions) : List UInt8 := actionsFields.encode a

/-- The arrays are short enough to be encoded. -/
structure Encodable (a : Actions) : Prop where
  targets : (addressCodec.array.encode a.targets).length < 2 ^ 64
  values : (uint256Codec.array.encode a.values).length < 2 ^ 64
  signatures : (bytesCodec.array.encode a.signatures).length < 2 ^ 64
  calldatas : (bytesCodec.array.encode a.calldatas).length < 2 ^ 64
  withDelegatecalls : (Codec.bool.array.encode a.withDelegatecalls).length < 2 ^ 64

end Actions

/-- `abi.decode(data, (address[], uint256[], string[], bytes[], bool[]))` -/
def decodeActions (data : Bytes) : Option Actions := actionsFields.decode data.data 0

/-- What fits into a message is encodable. -/
theorem Actions.encodable_of_length {a : Actions} (h : a.encode.length < 2 ^ 64) :
    a.Encodable := by
  have hle : ∀ p ∈ actionsFields.parts a, p.tail.length < 2 ^ 64 := fun p hp =>
    Nat.lt_of_le_of_lt (length_tail_le_tuple hp) h
  refine ⟨hle (addressCodec.array.part a.targets) ?_, hle (uint256Codec.array.part a.values) ?_,
    hle (bytesCodec.array.part a.signatures) ?_, hle (bytesCodec.array.part a.calldatas) ?_,
    hle (Codec.bool.array.part a.withDelegatecalls) ?_⟩ <;>
  simp [actionsFields, Fields.via, Fields.cons]

theorem actions_reads {a : Actions} (h : a.Encodable) : actionsFields.Reads a :=
  Fields.via_reads
    (Fields.cons_reads (Codec.array_reads (fun x _ => address_reads x) h.targets) <|
      Fields.cons_reads (Codec.array_reads (fun x _ => uint256_reads x) h.values) <|
      Fields.cons_reads (Codec.array_reads (fun x _ => bytes_reads x) h.signatures) <|
      Fields.cons_reads (Codec.array_reads (fun x _ => bytes_reads x) h.calldatas) <|
      Fields.cons_reads (Codec.array_reads (fun x _ => Codec.bool_reads x) h.withDelegatecalls)
        Fields.nil_reads) rfl

/-- The five arrays are read back, whatever stands behind them. -/
theorem decode_encode_actions {a : Actions} {data : Bytes} {rest : List UInt8}
    (h : data.data = a.encode ++ rest) : decodeActions data = some a := by
  have hsmall : a.encode.length < 2 ^ 64 := by
    have hlen := data.small
    rw [h, List.length_append] at hlen
    omega
  have hreads := actions_reads (Actions.encodable_of_length hsmall)
  rw [decodeActions, h]
  exact hreads.decode_encode (hreads.small hsmall) rest

theorem bytes_stable : bytesCodec.Stable := Codec.via_stable Codec.bytes_stable

theorem actions_stable : actionsFields.Stable :=
  Fields.via_stable <|
    Fields.cons_stable (Codec.array_stable (Codec.uint_stable 160)) <|
    Fields.cons_stable (Codec.array_stable (Codec.uint_stable 256)) <|
    Fields.cons_stable (Codec.array_stable bytes_stable) <|
    Fields.cons_stable (Codec.array_stable bytes_stable) <|
    Fields.cons_stable (Codec.array_stable Codec.bool_stable) Fields.nil_stable

/-- No array is longer than the message has words for, and no byte string longer than the message
has bytes for. -/
structure Actions.Within (a : Actions) (data : Bytes) : Prop where
  targets : 32 + 32 * a.targets.length ≤ data.data.length
  values : 32 + 32 * a.values.length ≤ data.data.length
  signatures : 32 + 32 * a.signatures.length ≤ data.data.length
  calldatas : 32 + 32 * a.calldatas.length ≤ data.data.length
  withDelegatecalls : 32 + 32 * a.withDelegatecalls.length ≤ data.data.length
  signature : ∀ b ∈ a.signatures, 32 + b.data.length ≤ data.data.length
  calldata : ∀ b ∈ a.calldatas, 32 + b.data.length ≤ data.data.length

/-- A byte string in a component that is an array of them. -/
theorem length_bytes_component_le {b : List UInt8} {i : Nat} {xs : List Bytes}
    (h : bytesCodec.array.component b i = some xs) : ∀ x ∈ xs, 32 + x.data.length ≤ b.length := by
  intro x hx
  obtain ⟨off, hoff⟩ := Codec.exists_decode_of_component h
  obtain ⟨off', hoff'⟩ := Codec.exists_decode_of_mem_array hoff hx
  obtain ⟨y, hy, rfl⟩ := Option.map_eq_some_iff.mp hoff'
  have hle := Codec.length_bytes_le hy
  rw [List.length_drop, List.length_drop] at hle
  show 32 + y.val.length ≤ b.length
  omega

theorem within_of_decodeActions {data : Bytes} {a : Actions} (h : decodeActions data = some a) :
    a.Within data := by
  rw [decodeActions, actionsFields, Fields.via_decode_eq_some] at h
  obtain ⟨⟨targets, values, signatures, calldatas, withDelegatecalls, _⟩, h, rfl⟩ := h
  simp only [Fields.cons_decode_eq_some] at h
  obtain ⟨htargets, hvalues, hsignatures, hcalldatas, hwithDelegatecalls, -⟩ := h
  exact ⟨Codec.length_array_component_le htargets, Codec.length_array_component_le hvalues,
    Codec.length_array_component_le hsignatures, Codec.length_array_component_le hcalldatas,
    Codec.length_array_component_le hwithDelegatecalls, length_bytes_component_le hsignatures,
    length_bytes_component_le hcalldatas⟩

/-- **What the decoder makes of a message**, whoever wrote it: a set that stands at its front is
read back, and what is read of any other message fits into it and does not depend on what is put
behind the message. -/
theorem decodeActions_reads (data : Bytes) :
    (∀ a : Actions, a.encode <+: data.data → decodeActions data = some a)
    ∧ ∀ a : Actions, decodeActions data = some a → a.Within data
      ∧ ∀ data' : Bytes, data.data <+: data'.data → decodeActions data' = some a := by
  constructor
  · rintro a ⟨rest, hrest⟩
    exact decode_encode_actions hrest.symm
  · intro a h
    refine ⟨within_of_decodeActions h, ?_⟩
    rintro data' ⟨rest, hrest⟩
    rw [decodeActions, ← hrest]
    exact actions_stable h rest

/-! ## The preimage of an action hash -/

/-- `(address, uint256, string, bytes, uint256, bool)` -/
def actionHashFields :
    Fields (Address × UInt256 × Bytes × Bytes × UInt256 × Bool × Unit) :=
  .cons addressCodec <| .cons uint256Codec <| .cons bytesCodec <| .cons bytesCodec <|
    .cons uint256Codec <| .cons Codec.bool .nil

/-- `abiEncode` is `abi.encode` at these types. -/
theorem abiEncode_eq_encode (a : Action) (t : UInt256) : abiEncode a t = actionHashFields.encode
    (a.target, a.value, a.signature, a.calldata, t, a.withDelegatecall, ()) := by
  have hdyn (b : Bytes) : bytesCodec.part b = ⟨true, Words.tail b.data⟩ := rfl
  have haddress (x : Address) : addressCodec.part x = ⟨false, Words.word x.toNat⟩ := rfl
  have huint (x : UInt256) : uint256Codec.part x = ⟨false, Words.word x.toNat⟩ := rfl
  have hbool (x : Bool) : Codec.bool.part x = ⟨false, Words.word x.toNat⟩ := rfl
  show abiEncode a t = tuple [addressCodec.part a.target, uint256Codec.part a.value,
    bytesCodec.part a.signature, bytesCodec.part a.calldata, uint256Codec.part t,
    Codec.bool.part a.withDelegatecall]
  simp [hdyn, haddress, huint, hbool, abiEncode, tuple, heads, tails, Part.head, Part.tail]

/-! ## Functions that are called by their selector -/

/-- The bytes of a text without other letters than those of ASCII. -/
def ascii (s : String) : List UInt8 := s.toList.map fun c => UInt8.ofNat c.toNat

variable {H : Type} (K : Keccak H)

/-- The first four bytes of the hash of a signature. -/
def Keccak.selector (signature : String) : List UInt8 := K.bytes4 (K.hash (ascii signature))

def syncStateMethod : Method (Address × Bytes × Unit) where
  selector := K.selector "syncState(address,bytes)"
  fields := .cons addressCodec <| .cons bytesCodec .nil

def onStateReceiveMethod : Method (UInt256 × Bytes × Unit) where
  selector := K.selector "onStateReceive(uint256,bytes)"
  fields := .cons uint256Codec <| .cons bytesCodec .nil

def processMessageFromRootMethod : Method (UInt256 × Address × Bytes × Unit) where
  selector := K.selector "processMessageFromRoot(uint256,address,bytes)"
  fields := .cons uint256Codec <| .cons addressCodec <| .cons bytesCodec .nil

/-- `queue` of the executors on Optimism and Arbitrum. -/
def queueMethod : Method Actions where
  selector := K.selector "queue(address[],uint256[],string[],bytes[],bool[])"
  fields := actionsFields

/-- `redirect` of the messenger on Optimism. -/
def redirectMethod : Method (Address × Address × Bytes × BitVec 32 × Unit) where
  selector := K.selector "redirect(address,address,bytes,uint32)"
  fields := .cons addressCodec <| .cons addressCodec <| .cons bytesCodec <| .cons (.uint 32) .nil

/-- `redirect` of the messenger on Ethereum. -/
def redirectToL1Method : Method (Address × Bytes × BitVec 32 × Unit) where
  selector := K.selector "redirect(address,bytes,uint32)"
  fields := .cons addressCodec <| .cons bytesCodec <| .cons (.uint 32) .nil

variable {K}

/-- `bytes4` has four bytes. -/
def Keccak.FourBytes (K : Keccak H) : Prop := ∀ h, (K.bytes4 h).length = 4

namespace Example

/-- `bytes4` pads what is too short. -/
def paddedKeccak : Keccak (List UInt8) where
  hash preimage := preimage
  bytes4 h := (h ++ [0, 0, 0, 0]).take 4

theorem fourBytes_paddedKeccak : paddedKeccak.FourBytes := fun h => by
  show ((h ++ [0, 0, 0, 0]).take 4).length = 4
  simp

end Example

theorem decode_syncState (hK : K.FourBytes) (receiver : Address) (data : Bytes) :
    (syncStateMethod K).decode ((syncStateMethod K).callData (receiver, data, ()))
      = some (receiver, data, ()) :=
  Method.decode_callData (hK _)
    (Fields.cons_reads (address_reads _) <| Fields.cons_reads (bytes_reads _) Fields.nil_reads)
    ⟨nofun, fun _ => (by decide : 64 < 2 ^ 64), trivial⟩

theorem decode_onStateReceive (hK : K.FourBytes) (stateId : UInt256) (data : Bytes) :
    (onStateReceiveMethod K).decode ((onStateReceiveMethod K).callData (stateId, data, ()))
      = some (stateId, data, ()) :=
  Method.decode_callData (hK _)
    (Fields.cons_reads (uint256_reads _) <| Fields.cons_reads (bytes_reads _) Fields.nil_reads)
    ⟨nofun, fun _ => (by decide : 64 < 2 ^ 64), trivial⟩

theorem decode_processMessageFromRoot (hK : K.FourBytes) (stateId : UInt256)
    (rootMessageSender : Address) (data : Bytes) :
    (processMessageFromRootMethod K).decode
        ((processMessageFromRootMethod K).callData (stateId, rootMessageSender, data, ()))
      = some (stateId, rootMessageSender, data, ()) :=
  Method.decode_callData (hK _)
    (Fields.cons_reads (uint256_reads _) <| Fields.cons_reads (address_reads _) <|
      Fields.cons_reads (bytes_reads _) Fields.nil_reads)
    ⟨nofun, nofun, fun _ => (by decide : 96 < 2 ^ 64), trivial⟩

theorem decode_redirect (hK : K.FourBytes) (sender target : Address) (message : Bytes)
    (gasLimit : BitVec 32) : (redirectMethod K).decode
        ((redirectMethod K).callData (sender, target, message, gasLimit, ()))
      = some (sender, target, message, gasLimit, ()) :=
  Method.decode_callData (hK _)
    (Fields.cons_reads (address_reads _) <| Fields.cons_reads (address_reads _) <|
      Fields.cons_reads (bytes_reads _) <|
      Fields.cons_reads (Codec.uint_reads (by decide) _) Fields.nil_reads)
    ⟨nofun, nofun, fun _ => (by decide : 128 < 2 ^ 64), nofun, trivial⟩

theorem decode_redirectToL1 (hK : K.FourBytes) (target : Address) (message : Bytes)
    (gasLimit : BitVec 32) : (redirectToL1Method K).decode
        ((redirectToL1Method K).callData (target, message, gasLimit, ()))
      = some (target, message, gasLimit, ()) :=
  Method.decode_callData (hK _)
    (Fields.cons_reads (address_reads _) <| Fields.cons_reads (bytes_reads _) <|
      Fields.cons_reads (Codec.uint_reads (by decide) _) Fields.nil_reads)
    ⟨nofun, fun _ => (by decide : 96 < 2 ^ 64), nofun, trivial⟩

/-- The call of `queue` that stands in a message. -/
theorem decode_queue (hK : K.FourBytes) {a : Actions} {message : Bytes}
    (hmessage : message.data = (queueMethod K).callData a) :
    (queueMethod K).decode message.data = some a := by
  have hsmall : a.encode.length < 2 ^ 64 := by
    have hlen := message.small
    rw [hmessage, Method.callData, List.length_append] at hlen
    exact Nat.lt_of_le_of_lt (Nat.le_add_left _ _) hlen
  have hreads := actions_reads (Actions.encodable_of_length hsmall)
  rw [hmessage]
  exact Method.decode_callData (hK _) hreads (hreads.small hsmall)

/-- A byte string that is not longer than memory. -/
def toBytes (b : List UInt8) : Option Bytes := if h : b.length < 2 ^ 64 then some ⟨b, h⟩ else none

theorem toBytes_eq_some {b : List UInt8} {c : Bytes} : toBytes b = some c ↔ c.data = b := by
  unfold toBytes
  constructor
  · intro h
    split at h
    · cases h
      rfl
    · cases h
  · rintro rfl
    exact dif_pos c.small

end BridgeExecutor
