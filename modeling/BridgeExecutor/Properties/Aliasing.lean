import BridgeExecutor.Contracts.Inheriting
import BridgeExecutor.Scripts.Arbitrum

/-!
# The alias helpers and the contract

The helpers print an address as a number.  `toHexString` leaves out leading zero bytes and
`getAddress` insists on forty digits, so an address with a leading zero byte cannot be printed,
unless it is zero, which is a case of its own.

* `applyL1ToL2Alias_eq`, `undoL1ToL2Alias_eq` — the helpers on every spelling of an address
* `helpersAgree_iff` — the addresses on which the helpers do what the contract does
-/

namespace BridgeExecutor

/-- An address that the helpers can print. -/
def Printable (a : Address) : Prop := a = 0 ∨ 2 ^ 152 ≤ a.toNat

instance (a : Address) : Decidable (Printable a) := inferInstanceAs (Decidable (_ ∨ _))

/-- Addition modulo 2^160, in unbounded integers. -/
theorem toNat_add_emod (a b : Address) :
    ((a.toNat : Int) + (b.toNat : Int)) % 2 ^ 160 = ((a + b).toNat : Int) := by
  rw [BitVec.toNat_add]
  omega

theorem toNat_sub_emod (a b : Address) :
    ((a.toNat : Int) - (b.toNat : Int)) % 2 ^ 160 = ((a - b).toNat : Int) := by
  have hb := b.isLt
  rw [BitVec.toNat_sub]
  omega

section

variable {E : Ethers}

theorem bigNumberFrom_spells (hE : E.Documented) {s : Text} {a : Address} (h : Spells s a) :
    E.bigNumberFrom s = some (a.toNat : BigNumber) := by
  obtain ⟨d, rfl, hd⟩ := h
  have hne : Words.bigEndian 20 a.toNat ≠ [] := by
    intro hnil
    have hlen := Words.length_bigEndian 20 a.toNat
    rw [hnil] at hlen
    cases hlen
  rw [hE.bigNumberFrom d _ hne hd, ofBytes_address]

theorem spells_aliasingOffset : Spells aliasingOffset AddressAliasHelper.offset :=
  ⟨_, rfl, by decide⟩

theorem checksum_zero (hE : E.Documented) : E.checksum 0 = zeroAddress :=
  (hE.checksum 0).zero

/-- A number of 20 bytes is printed with all its digits. -/
theorem toHexString_of_le (hE : E.Documented) {a : Address} (h : 2 ^ 152 ≤ a.toNat) :
    E.toHexString a.toNat = hexString (addressDigits a) := by
  have hpow : (256 : Nat) ^ 19 = 2 ^ 152 := by decide
  have hlen := Words.length_shortest_eq (by rw [hpow]; exact h) (toNat_lt_pow a)
  have hpad := Words.replicate_append_shortest (by decide) (toNat_lt_pow a)
  rw [hlen] at hpad
  rw [hE.toHexString, addressDigits, ← hpad]
  rfl

/-- A smaller number is printed with fewer. -/
theorem getAddress_of_lt (hE : E.Documented) {n : Nat} (h : n < 2 ^ 152) :
    E.getAddress (E.toHexString n) = none := by
  have hpow : (256 : Nat) ^ 19 = 2 ^ 152 := by decide
  have hlen : (Words.shortest n).length ≤ 19 :=
    Words.length_shortest_le (by decide) (by rw [hpow]; exact h)
  rw [hE.toHexString]
  refine hE.getAddress_length _ ?_
  rw [Hex.length_encode]
  omega

/-- The last two lines of both helpers. -/
theorem print_eq (hE : E.Documented) (a : Address) :
    (if (a.toNat : Int) = 0 then some zeroAddress else E.getAddress (E.toHexString a.toNat))
      = if Printable a then some (E.checksum a) else none := by
  by_cases hzero : a = 0
  · subst hzero
    have hprintable : Printable 0 := Or.inl rfl
    rw [if_pos hprintable, checksum_zero hE]
    rfl
  · have hne : ¬ (a.toNat : Int) = 0 := fun h =>
      hzero (BitVec.eq_of_toNat_eq (by rw [Int.ofNat_eq_zero.mp h]; rfl))
    rw [if_neg hne]
    by_cases hle : 2 ^ 152 ≤ a.toNat
    · have hprintable : Printable a := Or.inr hle
      rw [if_pos hprintable, toHexString_of_le hE hle, hE.getAddress]
    · have hnot : ¬ Printable a := fun h => h.elim hzero hle
      rw [if_neg hnot, getAddress_of_lt hE (Nat.lt_of_not_le hle)]

theorem applyL1ToL2Alias_eq (hE : E.Documented) {s : Text} {a : Address} (h : Spells s a) :
    applyL1ToL2Alias E s = if Printable (AddressAliasHelper.applyL1ToL2Alias a)
      then some (E.checksum (AddressAliasHelper.applyL1ToL2Alias a)) else none := by
  have hmod : E.mod ((a.toNat : Int) + (AddressAliasHelper.offset.toNat : Int)) (2 ^ 160)
      = ((AddressAliasHelper.applyL1ToL2Alias a).toNat : Int) := by
    rw [hE.mod _ _ (by decide)]
    exact toNat_add_emod a _
  rw [applyL1ToL2Alias, bigNumberFrom_spells hE spells_aliasingOffset,
    bigNumberFrom_spells hE h, Option.bind_some, Option.bind_some]
  dsimp only
  rw [hmod]
  exact print_eq hE _

theorem undoL1ToL2Alias_eq (hE : E.Documented) {s : Text} {a : Address} (h : Spells s a) :
    undoL1ToL2Alias E s = if Printable (AddressAliasHelper.undoL1ToL2Alias a)
      then some (E.checksum (AddressAliasHelper.undoL1ToL2Alias a)) else none := by
  have hmod : E.mod ((a.toNat : Int) - (AddressAliasHelper.offset.toNat : Int)) (2 ^ 160)
      = ((AddressAliasHelper.undoL1ToL2Alias a).toNat : Int) := by
    rw [hE.mod _ _ (by decide)]
    exact toNat_sub_emod a _
  rw [undoL1ToL2Alias, bigNumberFrom_spells hE spells_aliasingOffset,
    bigNumberFrom_spells hE h, Option.bind_some, Option.bind_some]
  dsimp only
  rw [hmod]
  exact print_eq hE _

end

/-! ## Agreement -/

/-- What the helpers are for, at the address `a`. -/
structure HelpersAgree (E : Ethers) (a : Address) : Prop where
  applied : ∀ s, Spells s a →
    applyL1ToL2Alias E s = some (E.checksum (a + AddressAliasHelper.offset))
  accepted : ∀ msg, arbitrumOnlyEthereumGovernanceExecutor msg ⟨a⟩ = .ok () ↔
    msg.sender = a + AddressAliasHelper.offset
  undone : ∀ s, Spells s a → ∃ s', undoL1ToL2Alias E s = some s'
  undo_apply : ∀ s, Spells s a →
    (applyL1ToL2Alias E s).bind (undoL1ToL2Alias E) = some (E.checksum a)
  apply_undo : ∀ s, Spells s a →
    (undoL1ToL2Alias E s).bind (applyL1ToL2Alias E) = some (E.checksum a)

/-- The contract accepts exactly the alias. -/
theorem arbitrumOnlyEthereumGovernanceExecutor_eq_ok {msg : Msg} {a : Address} :
    arbitrumOnlyEthereumGovernanceExecutor msg ⟨a⟩ = .ok () ↔
      msg.sender = a + AddressAliasHelper.offset := by
  unfold arbitrumOnlyEthereumGovernanceExecutor
  by_cases h : AddressAliasHelper.undoL1ToL2Alias msg.sender = a
  · rw [if_neg (not_not.mpr h), ← h]
    exact ⟨fun _ => (AddressAliasHelper.apply_undo msg.sender).symm, fun _ => rfl⟩
  · rw [if_pos h]
    refine ⟨nofun, fun hs => absurd ?_ h⟩
    rw [hs]
    exact AddressAliasHelper.undo_apply a

section

variable {E : Ethers}

theorem helpersAgree_iff_printable (hE : E.Documented) {a : Address} :
    HelpersAgree E a ↔ Printable a ∧ Printable (AddressAliasHelper.applyL1ToL2Alias a) ∧
      Printable (AddressAliasHelper.undoL1ToL2Alias a) := by
  have hs := hE.checksum a
  constructor
  · intro h
    have happly : Printable (AddressAliasHelper.applyL1ToL2Alias a) := by
      by_contra hnot
      have := h.applied _ hs
      rw [applyL1ToL2Alias_eq hE hs, if_neg hnot] at this
      cases this
    have hundo : Printable (AddressAliasHelper.undoL1ToL2Alias a) := by
      by_contra hnot
      obtain ⟨s', hs'⟩ := h.undone _ hs
      rw [undoL1ToL2Alias_eq hE hs, if_neg hnot] at hs'
      cases hs'
    refine ⟨?_, happly, hundo⟩
    by_contra hnot
    have hback := h.undo_apply _ hs
    rw [applyL1ToL2Alias_eq hE hs, if_pos happly, Option.bind_some,
      undoL1ToL2Alias_eq hE (hE.checksum _), AddressAliasHelper.undo_apply, if_neg hnot] at hback
    cases hback
  · rintro ⟨ha, happly, hundo⟩
    refine ⟨?_, fun msg => arbitrumOnlyEthereumGovernanceExecutor_eq_ok, ?_, ?_, ?_⟩
    · intro s hs
      rw [applyL1ToL2Alias_eq hE hs, if_pos happly]
      rfl
    · intro s hs
      exact ⟨_, by rw [undoL1ToL2Alias_eq hE hs, if_pos hundo]⟩
    · intro s hs
      rw [applyL1ToL2Alias_eq hE hs, if_pos happly, Option.bind_some,
        undoL1ToL2Alias_eq hE (hE.checksum _), AddressAliasHelper.undo_apply, if_pos ha]
    · intro s hs
      rw [undoL1ToL2Alias_eq hE hs, if_pos hundo, Option.bind_some,
        applyL1ToL2Alias_eq hE (hE.checksum _), AddressAliasHelper.apply_undo, if_pos ha]

/-- The addresses that lie strictly between `base` and `base + 2^152`. -/
def After (base : Nat) (a : Address) : Prop := base < a.toNat ∧ a.toNat < base + 2 ^ 152

instance (base : Nat) (a : Address) : Decidable (After base a) :=
  inferInstanceAs (Decidable (_ ∧ _))

theorem printable_iff {a : Address} : Printable a ↔ ¬ After 0 a := by
  have hzero : a = 0 ↔ a.toNat = 0 := ⟨fun h => by rw [h]; rfl, fun h => BitVec.eq_of_toNat_eq h⟩
  rw [Printable, After, hzero]
  omega

theorem offset_toNat :
    AddressAliasHelper.offset.toNat = 0x1111000000000000000000000000000000001111 := rfl

theorem printable_apply_iff {a : Address} :
    Printable (AddressAliasHelper.applyL1ToL2Alias a) ↔
      ¬ After (2 ^ 160 - AddressAliasHelper.offset.toNat) a := by
  have ha := a.isLt
  rw [printable_iff, After, After, AddressAliasHelper.applyL1ToL2Alias, BitVec.toNat_add,
    offset_toNat]
  omega

theorem printable_undo_iff {a : Address} :
    Printable (AddressAliasHelper.undoL1ToL2Alias a) ↔
      ¬ After AddressAliasHelper.offset.toNat a := by
  have ha := a.isLt
  rw [printable_iff, After, After, AddressAliasHelper.undoL1ToL2Alias, BitVec.toNat_sub,
    offset_toNat]
  omega

/--
**The helpers agree with the contract except for three intervals of addresses.**

They are those of the addresses that have a leading zero byte themselves or whose alias has one,
in one direction or the other.
-/
theorem helpersAgree_iff (hE : E.Documented) (a : Address) :
    HelpersAgree E a ↔ ¬ After 0 a ∧ ¬ After (2 ^ 160 - AddressAliasHelper.offset.toNat) a ∧
      ¬ After AddressAliasHelper.offset.toNat a := by
  rw [helpersAgree_iff_printable hE, printable_iff, printable_apply_iff, printable_undo_iff]

end

/-- An address whose neighbours have no leading zero byte, and no letter either. -/
theorem helpersAgree_iff_twos :
    HelpersAgree Ethers.reference 0x2222222222222222222222222222222222222222 :=
  (helpersAgree_iff Ethers.documented_reference _).mpr (by decide)

/-- The address whose alias is 1. -/
theorem not_helpersAgree_alias_one :
    applyL1ToL2Alias Ethers.reference "0xeeeeffffffffffffffffffffffffffffffffeef0".toList = none ∧
      ¬ HelpersAgree Ethers.reference 0xeeeeffffffffffffffffffffffffffffffffeef0 := by
  have hs : Spells "0xeeeeffffffffffffffffffffffffffffffffeef0".toList
      0xeeeeffffffffffffffffffffffffffffffffeef0 := ⟨_, rfl, by decide⟩
  have hnone : applyL1ToL2Alias Ethers.reference
      "0xeeeeffffffffffffffffffffffffffffffffeef0".toList = none := by
    rw [applyL1ToL2Alias_eq Ethers.documented_reference hs, if_neg (by decide)]
  refine ⟨hnone, fun h => ?_⟩
  have happlied := h.applied _ hs
  rw [hnone] at happlied
  cases happlied

end BridgeExecutor
