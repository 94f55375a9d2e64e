import BridgeExecutor.Scripts.Ethers
import Mathlib.Algebra.Group.Int.Defs

/-!
# The scripts for Arbitrum

The alias helpers of `helpers/arbitrum-helpers.ts` and the functions of `tasks/l2/arbitrum.ts`
that compute the id of a retryable ticket, over the functions of `ethers`.
-/

namespace BridgeExecutor

variable (E : Ethers)

/-! ## `helpers/arbitrum-helpers.ts` -/

/-- `ALIASING_OFFSET` -/
def aliasingOffset : Text := "0x1111000000000000000000000000000000001111".toList

/-- `ZERO_ADDRESS` -/
def zeroAddress : Text := "0x0000000000000000000000000000000000000000".toList

def applyL1ToL2Alias (l1Address : Text) : Option Text :=
  (E.bigNumberFrom aliasingOffset).bind fun offset =>
  (E.bigNumberFrom l1Address).bind fun l1 =>
    let l2Address := E.mod (l1 + offset) (2 ^ 160)
    if l2Address = 0 then some zeroAddress
    else E.getAddress (E.toHexString l2Address)

def undoL1ToL2Alias (l2Address : Text) : Option Text :=
  (E.bigNumberFrom aliasingOffset).bind fun offset =>
  (E.bigNumberFrom l2Address).bind fun l2 =>
    let l1Address := E.mod (l2 - offset) (2 ^ 160)
    if l1Address = 0 then some zeroAddress
    else E.getAddress (E.toHexString l1Address)

/-! ## `tasks/l2/arbitrum.ts` -/

/-- What `parseInboxMessageDataField` returns. -/
structure InboxMessageData where
  destAddress : Text
  l2CallValue : BigNumber
  l1Value : BigNumber
  maxSubmissionFee : BigNumber
  excessFeeRefundAddress : Text
  callValueRefundAddress : Text
  gasLimit : BigNumber
  maxFeePerGas : BigNumber
  data : Text
deriving DecidableEq

/-- `eventData.substring(start)`; a negative `start` counts as zero. -/
def substring (s : Text) (start : Int) : Text := s.drop start.toNat

def addressFromBigNumber (bn : BigNumber) : Option Text :=
  (E.hexZeroPad (E.toHexString bn) 20).bind E.getAddress

def parseInboxMessageDataField (eventData : Text) : Option InboxMessageData :=
  match E.decodeUint256s 9 eventData with
  | some [dest, l2CallValue, l1Value, maxSubmissionFee, excessFeeRefund, callValueRefund, gasLimit,
      maxFeePerGas, callDataLength] =>
    (addressFromBigNumber E dest).bind fun destAddress =>
    (addressFromBigNumber E excessFeeRefund).bind fun excessFeeRefundAddress =>
    (addressFromBigNumber E callValueRefund).bind fun callValueRefundAddress =>
    (E.toNumber (callDataLength * 2)).bind fun length =>
      some
        { destAddress, l2CallValue, l1Value, maxSubmissionFee, excessFeeRefundAddress,
          callValueRefundAddress, gasLimit, maxFeePerGas,
          data := hexString (substring eventData (eventData.length - length)) }
  | _ => none

/-- What `RLP.encode` takes as a byte string. -/
inductive BytesLike where
  | bytes (b : List UInt8)
  | hex (s : Text)
deriving DecidableEq

def BytesLike.arrayify : BytesLike → Option (List UInt8)
  | .bytes b => some b
  | .hex s => E.arrayify s

def formatNumber (value : BigNumber) : Option (List UInt8) := E.stripZeros (E.toHexString value)

/-- `fields` of `calculateSubmitRetryableId` -/
def submitRetryableFields (l2ChainId : Nat) (fromAddress : Text)
    (messageNumber l1BaseFee : BigNumber) (m : InboxMessageData) : Option (List BytesLike) :=
  (formatNumber E l2ChainId).bind fun chainId =>
  (formatNumber E messageNumber).bind fun strippedMsgNum =>
  (E.zeroPad strippedMsgNum 32).bind fun msgNum =>
  (formatNumber E l1BaseFee).bind fun baseFee =>
  (formatNumber E m.l1Value).bind fun l1Value =>
  (formatNumber E m.maxFeePerGas).bind fun maxFeePerGas =>
  (formatNumber E m.gasLimit).bind fun gasLimit =>
  (formatNumber E m.l2CallValue).bind fun l2CallValue =>
  (formatNumber E m.maxSubmissionFee).bind fun maxSubmissionFee =>
    some [.bytes chainId, .bytes msgNum, .hex fromAddress, .bytes baseFee, .bytes l1Value,
      .bytes maxFeePerGas, .bytes gasLimit, .hex m.destAddress, .bytes l2CallValue,
      .hex m.callValueRefundAddress, .bytes maxSubmissionFee, .hex m.excessFeeRefundAddress,
      .hex m.data]

/-- The byte strings that `RLP.encode` is given. -/
def submitRetryableBytes (l2ChainId : Nat) (fromAddress : Text)
    (messageNumber l1BaseFee : BigNumber) (m : InboxMessageData) : Option (List (List UInt8)) :=
  (submitRetryableFields E l2ChainId fromAddress messageNumber l1BaseFee m).bind fun fields =>
    fields.mapM (BytesLike.arrayify E)

/-- `rlpEnc` of `calculateSubmitRetryableId`; a submission has the transaction type `0x69`. -/
def submitRetryablePreimage (l2ChainId : Nat) (fromAddress : Text)
    (messageNumber l1BaseFee : BigNumber) (m : InboxMessageData) : Option (List UInt8) :=
  (submitRetryableBytes E l2ChainId fromAddress messageNumber l1BaseFee m).map fun fields =>
    0x69 :: E.rlpEncode fields

def calculateSubmitRetryableId {H : Type} (K : Keccak H) (l2ChainId : Nat) (fromAddress : Text)
    (messageNumber l1BaseFee : BigNumber) (m : InboxMessageData) : Option H :=
  (submitRetryablePreimage E l2ChainId fromAddress messageNumber l1BaseFee m).map K.hash

end BridgeExecutor
