import Mathlib

/-!
Doubles as bits and as numbers taken apart. Of the numbers taken apart only some stand for a double:
those with a significand of 53 bits, or of fewer at the least exponent. These come out of the bits
as they went in, unless the exponent is too large; then infinity comes out.
-/

namespace LadderChart

open Float.Model Float.Model.UnpackedFloat

/-- Significand and exponent as they stand in a double. -/
structure Canonical (m : Nat) (e : Int) : Prop where
  bits : m < 2 ^ 53
  least : -1074 ≤ e
  full : 2 ^ 52 ≤ m ∨ e = -1074

theorem unpackSign_packComponents (sign : Sign) (exponent : BitVec 11) (mantissa : BitVec 52) :
    Sign.ofBitVec (unpackSign (packComponents .binary64 sign exponent mantissa)) = sign := by
  have bit : unpackSign (packComponents .binary64 sign exponent mantissa) = sign.toBitVec := by
    ext i hi
    -- the sign is one bit, and stands before the exponent and the significand
    have zero : i = 0 := by omega
    subst zero
    have last : (sign.toBitVec ++ exponent ++ mantissa).getLsbD 63 = sign.toBitVec[0] := by
      rw [BitVec.getLsbD_append, BitVec.getLsbD_append]
      rfl
    simp only [unpackSign, packComponents, BitVec.extractLsb, BitVec.getElem_cast,
      BitVec.getElem_extractLsb']
    exact last
  rw [bit]
  cases sign <;> rfl

/-- The leading one of a normal number is put back in front of the bits that are stored. -/
theorem toNat_leading_one (bits : BitVec 52) : (1#1 ++ bits).toNat = 2 ^ 52 + bits.toNat := by
  have one : (1#1).toNat = 1 := rfl
  rw [BitVec.toNat_append, ← Nat.shiftLeft_add_eq_or_of_lt bits.isLt, one, Nat.shiftLeft_eq]
  omega

section Packing
variable (s : Sign) {m : Nat} {e : Int} (pos : 0 < m)

theorem unpack_pack_normal (low : 2 ^ 52 ≤ m) (high : m < 2 ^ 53) (least : -1074 ≤ e)
    (most : e ≤ 971) : (Float.Model.pack (.finite s m e pos)).unpack = .finite s m e pos := by
  have bits : m.log2 = 52 := (Nat.log2_eq_iff (Nat.pos_iff_ne_zero.mp pos)).mpr ⟨low, high⟩
  have bias : ((Format.binary64.exponentBias : Nat) : Int) = 1023 := rfl
  obtain ⟨biased, same⟩ : ∃ biased : Nat, (biased : Int) = e + 1075 := ⟨(e + 1075).toNat, by omega⟩
  have field : (e + Format.binary64.exponentBias + (52 : Nat)).toNat = biased := by omega
  have packed : UnpackedFloat.pack .binary64 (.finite s m e pos) =
      packComponents .binary64 s (BitVec.ofNat _ biased) (BitVec.ofNat _ m) := by
    have finite : ¬ 2 ^ 11 ≤ biased + 1 := by omega
    simp only [UnpackedFloat.pack, bits, field, if_neg finite]
    rfl
  have exponentOf : (BitVec.ofNat 11 biased).toNat = biased := Nat.mod_eq_of_lt (by omega)
  have mantissaOf : (1#1 ++ BitVec.ofNat 52 m).toNat = m := by
    have tail : (BitVec.ofNat 52 m).toNat = m % 2 ^ 52 := BitVec.toNat_ofNat m 52
    rw [toNat_leading_one, tail]
    omega
  -- the field is neither that of infinities nor that of subnormal numbers
  have inside : BitVec.ofNat 11 biased ≠ -1#11 ∧ BitVec.ofNat 11 biased ≠ 0#11 := by
    constructor
    · intro last
      have all := congrArg BitVec.toNat last
      rw [exponentOf] at all
      have top : (-1#11).toNat = 2047 := rfl
      omega
    · intro zero
      have none := congrArg BitVec.toNat zero
      rw [exponentOf] at none
      have bottom : (0#11).toNat = 0 := rfl
      omega
  change UnpackedFloat.unpack .binary64 (UnpackedFloat.pack .binary64 _) = _
  rw [packed]
  simp only [UnpackedFloat.unpack, unpackExponent_packComponents, unpackMantissa_packComponents,
    unpackSign_packComponents, if_neg inside.1, if_neg inside.2, exponentOf, mantissaOf]
  have back : (biased : Int) - (Format.binary64.exponentBias + (52 : Nat)) = e := by omega
  simp only [back]

theorem unpack_pack_subnormal (small : m < 2 ^ 52) :
    (Float.Model.pack (.finite s m (-1074) pos)).unpack = .finite s m (-1074) pos := by
  -- with fewer bits the field of the exponent is zero, and no leading one is left out
  have bits : ¬ m.log2 + 1 = 53 := by
    have below := (Nat.log2_lt (Nat.pos_iff_ne_zero.mp pos)).mpr small
    omega
  have packed : UnpackedFloat.pack .binary64 (.finite s m (-1074) pos) =
      packComponents .binary64 s 0#11 (BitVec.ofNat _ m) := by
    have finite : ¬ 2 ^ 11 ≤ (-1074 + (Format.binary64.exponentBias : Int) + (52 : Nat)).toNat + 1 := by
      decide
    have width : Format.binary64.mantissaBits = 53 := rfl
    simp only [UnpackedFloat.pack, if_neg finite, width, if_neg bits]
  have mantissaOf : (BitVec.ofNat 52 m).toNat = m := Nat.mod_eq_of_lt small
  have filled : BitVec.ofNat 52 m ≠ 0#52 := by
    intro zero
    have none := congrArg BitVec.toNat zero
    rw [mantissaOf] at none
    have bottom : (0#52).toNat = 0 := rfl
    omega
  change UnpackedFloat.unpack .binary64 (UnpackedFloat.pack .binary64 _) = _
  rw [packed]
  have field : ¬ (0#11 : BitVec 11) = -1#11 := by decide
  simp only [UnpackedFloat.unpack, unpackExponent_packComponents, unpackMantissa_packComponents,
    unpackSign_packComponents, if_neg field, if_true, dif_neg filled, mantissaOf]
  rfl

theorem unpack_pack (canonical : Canonical m e) (most : e ≤ 971) :
    (Float.Model.pack (.finite s m e pos)).unpack = .finite s m e pos := by
  obtain ⟨high, least, full⟩ := canonical
  by_cases low : 2 ^ 52 ≤ m
  · exact unpack_pack_normal s pos low high least most
  · obtain rfl := full.resolve_left low
    exact unpack_pack_subnormal s pos (by omega)

theorem unpack_pack_overflow (large : 971 < e) :
    (Float.Model.pack (.finite s m e pos)).unpack = .infinity s := by
  have bias : ((Format.binary64.exponentBias : Nat) : Int) = 1023 := rfl
  have overflow : 2 ^ 11 ≤ (e + Format.binary64.exponentBias + (52 : Nat)).toNat + 1 := by omega
  have packed : UnpackedFloat.pack .binary64 (.finite s m e pos) = packedInfinity .binary64 s := by
    simp only [UnpackedFloat.pack, if_pos overflow]
  change UnpackedFloat.unpack .binary64 (UnpackedFloat.pack .binary64 _) = _
  rw [packed]
  cases s <;> rfl

end Packing

theorem unpack_pack_zero (s : Sign) : (Float.Model.pack (.zero s)).unpack = .zero s := by
  cases s <;> rfl

theorem unpack_pack_infinity (s : Sign) : (Float.Model.pack (.infinity s)).unpack = .infinity s := by
  cases s <;> rfl

/-- What a double is taken apart into could be packed again. -/
theorem canonical_unpack (x : Float.Model) {s : Sign} {m : Nat} {e : Int} {pos : 0 < m}
    (unpacked : x.unpack = .finite s m e pos) : Canonical m e ∧ e ≤ 971 := by
  have bias : ((Format.binary64.exponentBias : Nat) : Int) = 1023 := rfl
  have fraction : (@unpackMantissa .binary64 x.toBits.toBitVec).toNat < 2 ^ 52 :=
    BitVec.isLt _
  have field : (@unpackExponent .binary64 x.toBits.toBitVec).toNat < 2 ^ 11 :=
    BitVec.isLt _
  simp only [Float.Model.unpack, UnpackedFloat.unpack] at unpacked
  -- exponents of all ones are no number; of all zeros the number is subnormal
  split at unpacked
  · split at unpacked <;> cases unpacked
  · rename_i ordinary
    split at unpacked
    · rename_i least
      split at unpacked
      · cases unpacked
      · have none : (@unpackExponent .binary64 x.toBits.toBitVec).toNat = 0 := by
          rw [least]
          rfl
        injection unpacked with _ significand exponent
        refine ⟨⟨?_, ?_, .inr ?_⟩, ?_⟩ <;> omega
    · rename_i normal
      have some : (@unpackExponent .binary64 x.toBits.toBitVec).toNat ≠ 0 := by
        intro none
        exact normal (BitVec.eq_of_toNat_eq none)
      have below : (@unpackExponent .binary64 x.toBits.toBitVec).toNat ≠ 2047 := by
        intro all
        exact ordinary (BitVec.eq_of_toNat_eq all)
      injection unpacked with _ significand exponent
      rw [toNat_leading_one] at significand
      refine ⟨⟨?_, ?_, .inl ?_⟩, ?_⟩ <;> omega

end LadderChart
