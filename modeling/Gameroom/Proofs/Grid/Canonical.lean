import Mathlib
import Gameroom.Number.Basic

open Float.Model (Format UnpackedFloat totalExponent)
open Float.Model.UnpackedFloat

namespace Gameroom.Grid

/-- What a float is unpacked to: a special value, a mantissa of 53 bits, or a shorter one at the
least exponent. -/
def Canonical : UnpackedFloat → Prop
  | .finite _ m e _ => m < 2 ^ 53 ∧ -1074 ≤ e ∧ (2 ^ 52 ≤ m ∨ e = -1074)
  | _ => True

theorem toNat_one_append (m : BitVec 52) : (1#1 ++ m).toNat = 2 ^ 52 + m.toNat := by
  rw [BitVec.toNat_append, ← Nat.shiftLeft_add_eq_or_of_lt m.isLt, Nat.shiftLeft_eq]
  rfl

theorem ofNat_ne {w x : Nat} {c : BitVec w} (hx : x < 2 ^ w) (hc : x ≠ c.toNat) :
    BitVec.ofNat w x ≠ c := by
  rintro rfl
  rw [BitVec.toNat_ofNat, Nat.mod_eq_of_lt hx] at hc
  exact hc rfl

theorem canonical_unpack (b : BitVec Format.binary64.numBits) :
    Canonical (unpack .binary64 b) := by
  have hman : (unpackMantissa b).toNat < 2 ^ 52 := (unpackMantissa b).isLt
  fun_cases unpack with
  | case1 | case2 | case3 => trivial
  | case4 m x e _ s _ h0 hm =>
    have he : x.toNat = 0 := by simp [h0]
    refine ⟨by simp only [m]; omega, ?_, Or.inr ?_⟩ <;>
      simp only [e, he, Format.exponentBias] <;> decide
  | case5 m x e _ s _ h0 =>
    have hone : (1#1 ++ m).toNat = 2 ^ 52 + m.toNat := toNat_one_append m
    have hx : x.toNat ≠ 0 := fun h => h0 (BitVec.eq_of_toNat_eq (by simpa using h))
    refine ⟨by rw [hone]; simp only [m]; omega, ?_, Or.inl (by rw [hone]; omega)⟩
    simp only [e, Format.exponentBias]
    norm_num
    omega

theorem ofBitVec_unpackSign (s : Sign) (e : BitVec 11) (m : BitVec 52) :
    Sign.ofBitVec (unpackSign (packComponents Format.binary64 s e m)) = s := by
  rw [unpackSign_packComponents, Sign.ofBitVec_toBitVec]

def fitted : UnpackedFloat → UnpackedFloat
  | .finite s m e h => if e ≤ 971 then .finite s m e h else .infinity s
  | u => u

theorem unpack_pack {u : UnpackedFloat} (h : Canonical u) :
    unpack .binary64 (pack .binary64 u) = fitted u := by
  have hbias : Format.binary64.exponentBias = 1023 := rfl
  have hbits : Format.binary64.mantissaBits = 53 := rfl
  fun_cases pack with
  | case1 => simp [fitted]
  | case2 s => simp [unpack, packedInfinity, fitted]
  | case3 s => simp [fitted]
  | case4 s m e hm x hx =>
    have he : ¬ e ≤ 971 := by
      simp only [x, hbias] at hx
      norm_num at hx
      omega
    simp [unpack, packedInfinity, fitted, he]
  | case5 s m e hm bits x h₁ h₂ =>
    obtain ⟨hm53, he, -⟩ := h
    have hm52 : 2 ^ 52 ≤ m := by
      have := Nat.log2_self_le (Nat.ne_of_gt hm)
      have hlog : m.log2 = 52 := by omega
      rwa [hlog] at this
    have hx : (x : Int) = e + 1075 := by
      simp only [x, hbias]
      norm_num
      omega
    have hx2047 : x < 2047 := by norm_num at h₁; omega
    have hxn : (BitVec.ofNat 11 x).toNat = x := by
      rw [BitVec.toNat_ofNat]
      exact Nat.mod_eq_of_lt (by omega)
    have hneg : BitVec.ofNat 11 x ≠ -1#11 := ofNat_ne (by omega) (by simp; omega)
    have hzero : BitVec.ofNat 11 x ≠ 0#11 := ofNat_ne (by omega) (by simp; omega)
    -- The leading bit is not stored; unpacking puts it back.
    have hmn : (1#1 ++ BitVec.ofNat 52 m).toNat = m := by
      rw [toNat_one_append, BitVec.toNat_ofNat]
      omega
    rw [fitted, if_pos (by omega), unpack]
    simp only [unpackMantissa_packComponents, unpackExponent_packComponents, ofBitVec_unpackSign,
      hneg, hzero, if_false, hxn, hbias, hmn]
    congr 1
    norm_num
    omega
  | case6 s m e hm bits x h₁ h₂ =>
    obtain ⟨hm53, he, hlow⟩ := h
    have hm52 : m < 2 ^ 52 := by
      by_contra hge
      exact h₂ (by
        have : m.log2 = 52 := (Nat.log2_eq_iff (by omega)).2 ⟨by omega, hm53⟩
        simp only [bits, this, hbits])
    -- Fewer than 53 bits are left only at the least exponent.
    obtain rfl : e = -1074 := hlow.resolve_left (by omega)
    have hmn : (BitVec.ofNat 52 m).toNat = m := by
      rw [BitVec.toNat_ofNat]
      exact Nat.mod_eq_of_lt hm52
    have hzero : BitVec.ofNat 52 m ≠ 0#52 := ofNat_ne hm52 (by simp; omega)
    rw [fitted, if_pos (by omega), unpack]
    simp only [unpackMantissa_packComponents, unpackExponent_packComponents, ofBitVec_unpackSign,
      hzero, hmn, hbias]
    norm_num

theorem fitted_unpack (b : BitVec Format.binary64.numBits) :
    fitted (unpack .binary64 b) = unpack .binary64 b := by
  fun_cases unpack with
  | case1 | case2 | case3 => rfl
  | case4 m x e _ s _ h0 hm =>
    have hx : x.toNat = 0 := by simp [h0]
    exact if_pos (by simp only [e, hx, Format.exponentBias]; decide)
  | case5 m x e _ s h1 h0 =>
    have hx : x.toNat < 2 ^ 11 := x.isLt
    have hne : x.toNat ≠ 2 ^ 11 - 1 := fun h => h1 (BitVec.eq_of_toNat_eq (by simpa using h))
    refine if_pos ?_
    simp only [e, Format.exponentBias]
    norm_num
    omega

end Gameroom.Grid
