import BridgeExecutor.Lib.Hex
import BridgeExecutor.Lib.Rlp
import BridgeExecutor.Types

/-!
# The package `ethers`

The TypeScript sources compute with the package `ethers`, which is not part of the repository.
`Ethers` is what they call of it, and `Ethers.Documented` is how these functions behave on the
arguments that occur.

Strings are lists of characters, a `BigNumber` is an integer, and `none` is an exception.

* `Ethers.reference` — functions that behave so
* `Spells` — the strings that are read as a given address
-/

namespace BridgeExecutor

abbrev Text := List Char
abbrev BigNumber := Int

/-- The string of the hexadecimal digits `d`. -/
def hexString (d : Text) : Text := '0' :: 'x' :: d

structure Ethers where
  /-- `BigNumber.from` of a string -/
  bigNumberFrom : Text → Option BigNumber
  mod : BigNumber → BigNumber → BigNumber
  toHexString : BigNumber → Text
  toNumber : BigNumber → Option Int
  getAddress : Text → Option Text
  hexZeroPad : Text → Nat → Option Text
  stripZeros : Text → Option (List UInt8)
  zeroPad : List UInt8 → Nat → Option (List UInt8)
  arrayify : Text → Option (List UInt8)
  /-- `defaultAbiCoder.decode` for a number of `uint256` -/
  decodeUint256s : Nat → Text → Option (List BigNumber)
  /-- `RLP.encode` of a list of byte strings -/
  rlpEncode : List (List UInt8) → List UInt8
  /-- The spelling of an address with its checksum, which is in the case of the letters. -/
  checksum : Address → Text

/-- The digits of an address, in lower case. -/
def addressDigits (a : Address) : Text := Hex.encode (Words.bigEndian 20 a.toNat)

/-- A string of 40 digits in any case that is the address `a`. -/
def Spells (s : Text) (a : Address) : Prop :=
  ∃ d, s = hexString d ∧ Hex.decode d = some (Words.bigEndian 20 a.toNat)

namespace Ethers

/-- What the documentation of the package says. -/
structure Documented (E : Ethers) : Prop where
  bigNumberFrom : ∀ d b, b ≠ [] → Hex.decode d = some b →
    E.bigNumberFrom (hexString d) = some (Words.ofBytes b : BigNumber)
  mod : ∀ x m, 0 < m → E.mod x m = x % m
  toHexString : ∀ n : Nat, E.toHexString n = hexString (Hex.encode (Words.shortest n))
  toNumber : ∀ n : Nat, n < 2 ^ 53 → E.toNumber n = some (n : Int)
  getAddress : ∀ a, E.getAddress (hexString (addressDigits a)) = some (E.checksum a)
  getAddress_length : ∀ d, d.length ≠ 40 → E.getAddress (hexString d) = none
  checksum : ∀ a, Spells (E.checksum a) a
  hexZeroPad : ∀ d b k, Hex.decode d = some b → d.length ≤ 2 * k →
    E.hexZeroPad (hexString d) k
      = some (hexString (List.replicate (2 * k - d.length) '0' ++ d))
  stripZeros : ∀ b, E.stripZeros (hexString (Hex.encode b)) = some (b.dropWhile (· = 0))
  zeroPad : ∀ b k, b.length ≤ k → E.zeroPad b k = some (List.replicate (k - b.length) 0 ++ b)
  arrayify : ∀ d b, Hex.decode d = some b → E.arrayify (hexString d) = some b
  /-- Static words are read from the front, whatever follows them. -/
  decodeUint256s : ∀ (ws : List UInt256) (rest : List UInt8),
    E.decodeUint256s ws.length
        (hexString (Hex.encode (ws.flatMap (fun w => Words.word w.toNat) ++ rest)))
      = some (ws.map fun w => (w.toNat : BigNumber))
  rlpEncode_inj : ∀ l l', l.flatten.length + 9 * l.length < 2 ^ 64 →
    l'.flatten.length + 9 * l'.length < 2 ^ 64 → E.rlpEncode l = E.rlpEncode l' → l = l'

end Ethers

/-! ## Addresses as strings -/

theorem toNat_lt_pow (a : Address) : a.toNat < 256 ^ 20 := by
  have hpow : (256 : Nat) ^ 20 = 2 ^ 160 := by decide
  rw [hpow]
  exact a.isLt

theorem ofBytes_address (a : Address) : Words.ofBytes (Words.bigEndian 20 a.toNat) = a.toNat :=
  Words.ofBytes_bigEndian_of_lt (toNat_lt_pow a)

theorem spells_addressDigits (a : Address) : Spells (hexString (addressDigits a)) a :=
  ⟨_, rfl, Hex.decode_encode _⟩

/-- A string is read as one address only. -/
theorem Spells.unique {s : Text} {a b : Address} (ha : Spells s a) (hb : Spells s b) : a = b := by
  obtain ⟨d, rfl, hd⟩ := ha
  obtain ⟨d', hs, hd'⟩ := hb
  cases hs
  have hbytes := congrArg Words.ofBytes (Option.some.inj (hd.symm.trans hd'))
  rw [ofBytes_address, ofBytes_address] at hbytes
  exact BitVec.eq_of_toNat_eq hbytes

/-- The zero address has no letter in it, so it is spelled in one way. -/
theorem Spells.zero {s : Text} (h : Spells s 0) : s = hexString (List.replicate 40 '0') := by
  obtain ⟨d, rfl, hd⟩ := h
  have hzero : (0 : Address).toNat = 0 := rfl
  rw [hzero, Words.bigEndian_zero] at hd
  rw [Hex.eq_replicate_of_decode hd]

namespace Ethers

/-! ## Functions that behave so -/

/-- The digits behind the prefix. -/
def unhex : Text → Option (List UInt8)
  | '0' :: 'x' :: d => Hex.decode d
  | _ => none

def readWords : Nat → List UInt8 → Option (List BigNumber)
  | 0, _ => some []
  | k + 1, b =>
    if b.length < 32 then none
    else (readWords k (b.drop 32)).map ((Words.ofBytes (b.take 32) : BigNumber) :: ·)

/-- The case of the letters of an address is left out. -/
def reference : Ethers where
  bigNumberFrom s :=
    (unhex s).bind fun b => if b = [] then none else some (Words.ofBytes b : BigNumber)
  mod x m := x % m
  toHexString x :=
    if x < 0 then '-' :: hexString (Hex.encode (Words.shortest x.natAbs))
    else hexString (Hex.encode (Words.shortest x.natAbs))
  toNumber x := if x.natAbs < 2 ^ 53 then some x else none
  getAddress s :=
    (unhex s).bind fun b => if b.length = 20 then some (hexString (Hex.encode b)) else none
  hexZeroPad s k :=
    match s with
    | '0' :: 'x' :: d =>
      if (Hex.decode d).isSome ∧ d.length ≤ 2 * k then
        some (hexString (List.replicate (2 * k - d.length) '0' ++ d))
      else none
    | _ => none
  stripZeros s := (unhex s).map (List.dropWhile (· = 0))
  zeroPad b k := if b.length ≤ k then some (List.replicate (k - b.length) 0 ++ b) else none
  arrayify := unhex
  decodeUint256s k s := (unhex s).bind (readWords k)
  rlpEncode := Rlp.encodeList
  checksum a := hexString (addressDigits a)

theorem readWords_flatMap (rest : List UInt8) : ∀ ws : List UInt256,
    readWords ws.length (ws.flatMap (fun w => Words.word w.toNat) ++ rest)
      = some (ws.map fun w => (w.toNat : BigNumber))
  | [] => rfl
  | w :: ws => by
    have hpow : (256 : Nat) ^ 32 = 2 ^ 256 := by decide
    have hword : Words.ofBytes (Words.word w.toNat) = w.toNat :=
      Words.ofBytes_bigEndian_of_lt (by rw [hpow]; exact w.isLt)
    have hlen := Words.length_word w.toNat
    rw [List.flatMap_cons, List.append_assoc, List.length_cons, readWords,
      if_neg (by rw [List.length_append]; omega), List.drop_left' hlen, List.take_left' hlen,
      readWords_flatMap rest ws, hword]
    rfl

theorem unhex_hexString (d : Text) : unhex (hexString d) = Hex.decode d := rfl

theorem reference_toHexString (x : Int) : reference.toHexString x
    = if x < 0 then '-' :: hexString (Hex.encode (Words.shortest x.natAbs))
      else hexString (Hex.encode (Words.shortest x.natAbs)) := rfl

theorem reference_getAddress (d : Text) : reference.getAddress (hexString d)
    = (Hex.decode d).bind fun b =>
      if b.length = 20 then some (hexString (Hex.encode b)) else none := rfl

theorem documented_reference : reference.Documented where
  bigNumberFrom d b hne hd := by
    show (unhex (hexString d)).bind _ = _
    rw [unhex_hexString, hd, Option.bind_some, if_neg hne]
  mod _ _ _ := rfl
  toHexString n := by
    rw [reference_toHexString, if_neg (Int.not_lt.mpr (Int.natCast_nonneg n)),
      Int.natAbs_natCast]
  toNumber n hn := by
    have hsmall : (n : BigNumber).natAbs < 2 ^ 53 := by rw [Int.natAbs_natCast]; exact hn
    exact if_pos hsmall
  getAddress a := by
    rw [reference_getAddress, addressDigits, Hex.decode_encode, Option.bind_some,
      if_pos (Words.length_bigEndian 20 a.toNat)]
    rfl
  getAddress_length d hd := by
    rw [reference_getAddress]
    cases hb : Hex.decode d with
    | none => rfl
    | some b =>
      have hlen := Hex.length_decode hb
      rw [Option.bind_some, if_neg (by omega)]
  checksum := spells_addressDigits
  hexZeroPad d b k hd hk := if_pos ⟨Option.isSome_of_eq_some hd, hk⟩
  stripZeros b := by
    show (unhex (hexString (Hex.encode b))).map _ = _
    rw [unhex_hexString, Hex.decode_encode]
    rfl
  zeroPad b k hb := if_pos hb
  arrayify d b hd := hd
  decodeUint256s ws rest := by
    show (unhex (hexString _)).bind _ = _
    rw [unhex_hexString, Hex.decode_encode, Option.bind_some, readWords_flatMap]
  rlpEncode_inj _ _ := Rlp.encodeList_inj

end Ethers

end BridgeExecutor
