import Gameroom.Proofs.Number.Order

/-! A quotient of floats is more than three quarters of what it should be, as long as it should be
one at least. -/

open Float.Model (Format UnpackedFloat totalExponent)
open Float.Model.UnpackedFloat

namespace Gameroom.Grid

theorem mantissa_shiftRight (em : ExtendedMantissa) (k : Nat) :
    (em >>> k).mantissa = em.mantissa / 2 ^ k := by
  change (Nat.repeat ExtendedMantissa.shiftRightOne k em).mantissa = _
  induction k with
  | zero => simp [Nat.repeat]
  | succ k ih =>
    rw [Nat.repeat, ExtendedMantissa.shiftRightOne, ih, Nat.div_div_eq_div_mul, ← Nat.pow_succ]

theorem mantissa_le_rounded (em : ExtendedMantissa) :
    em.mantissa ≤ em.roundedMantissa ∧ em.roundedMantissa ≤ em.mantissa + 1 := by
  obtain ⟨m, roundBit, stickyBit⟩ := em
  cases roundBit <;> cases stickyBit <;>
    simp only [ExtendedMantissa.roundedMantissa, ExtendedMantissa.accuracy,
      Accuracy.roundToNearestEven] <;> omega

theorem mantissa_ofAccuracy (m : Nat) (a : Accuracy) :
    (ExtendedMantissa.ofMantissaAndAccuracy m a).mantissa = m := by
  cases a with
  | exact => rfl
  | inexact o => cases o <;> rfl

theorem roundWithAccuracy_inexact (s : Sign) {q : Nat} {t : Int} (a : Accuracy) (hq : 2 ^ 52 ≤ q)
    (ht : -1074 ≤ t) :
    ∃ r, q / 2 ^ (q.log2 - 52) ≤ r ∧ 2 ^ 52 ≤ q / 2 ^ (q.log2 - 52) ∧
      Counts (roundWithAccuracy .binary64 s q t a)
        (s.apply (r * 2 ^ (t + (q.log2 - 52 : Nat) + 1074).toNat : Nat)) := by
  have hlog : 52 ≤ q.log2 := (Nat.le_log2 (by omega)).2 hq
  obtain ⟨k, hk⟩ : ∃ k, q.log2 = k + 52 := ⟨q.log2 - 52, by omega⟩
  have hsub : q.log2 - 52 = k := by omega
  have hlow : 2 ^ 52 ≤ q / 2 ^ k := by
    rw [Nat.le_div_iff_mul_le (Nat.two_pow_pos k), ← Nat.pow_add, Nat.add_comm, ← hk]
    exact Nat.log2_self_le (by omega)
  have hhigh : q / 2 ^ k < 2 ^ 53 := by
    rw [Nat.div_lt_iff_lt_mul (Nat.two_pow_pos k), ← Nat.pow_add, Nat.add_comm]
    have hbits := Nat.lt_log2_self (n := q)
    rwa [hk, Nat.add_assoc] at hbits
  have hshift : (max ((q.log2 : Int) + t - 52) (-1074) - t).toNat = k := by omega
  obtain ⟨em, hem⟩ : ∃ em, ExtendedMantissa.ofMantissaAndAccuracy q a >>> k = em := ⟨_, rfl⟩
  have hmantissa : em.mantissa = q / 2 ^ k := by
    rw [← hem, mantissa_shiftRight, mantissa_ofAccuracy]
  have hfirst : shiftToTargetExponent .binary64 q t a = (em, t + k) := by
    simp only [shiftToTargetExponent, shiftToExponent, targetExponent_eq, hshift, hem]
  -- The first shift leaves 53 bits, or 54 once they are rounded; the second one mends that.
  have hround : roundWithAccuracy .binary64 s q t a =
      assembled s (shiftToTargetExponent .binary64 em.roundedMantissa (t + k) .exact) := by
    rw [roundWithAccuracy, hfirst]
    rfl
  obtain ⟨hge, hle⟩ := mantissa_le_rounded em
  rw [hmantissa] at hge hle
  rw [hsub, hround]
  exact ⟨em.roundedMantissa, hge, hlow, assembled_eq (by omega) (by omega) (.inl (by omega))⟩

variable {m₁ m₂ : Nat} {e₁ e₂ : Int} {hm₁ : 0 < m₁} {hm₂ : 0 < m₂}

theorem exponent_le (h₁ : Canonical (.finite .positive m₁ e₁ hm₁))
    (h₂ : Canonical (.finite .positive m₂ e₂ hm₂))
    (hle : m₂ * 2 ^ (e₂ + 1074).toNat ≤ m₁ * 2 ^ (e₁ + 1074).toNat) : e₂ ≤ e₁ := by
  by_contra hlt
  have hbits : 2 ^ 52 ≤ m₂ := h₂.2.2.resolve_right (by have := h₁.2.1; omega)
  have := units_lt_of_exponent_lt h₁.1 h₁.2.1 hbits (not_le.1 hlt)
  omega

theorem bits_of_quotient {m₁ m₂ j : Nat} (hm₁ : 0 < m₁) (hm₂ : 0 < m₂)
    (hj : m₂.log2 + 53 ≤ m₁.log2 + j) : 2 ^ 52 ≤ m₁ * 2 ^ j / m₂ := by
  rw [Nat.le_div_iff_mul_le hm₂]
  calc 2 ^ 52 * m₂ ≤ 2 ^ 52 * 2 ^ (m₂.log2 + 1) := Nat.mul_le_mul_left _ Nat.lt_log2_self.le
    _ = 2 ^ (m₂.log2 + 53) := by rw [← Nat.pow_add]; congr 1; omega
    _ ≤ 2 ^ (m₁.log2 + j) := Nat.pow_le_pow_right Nat.two_pos hj
    _ ≤ m₁ * 2 ^ j := by
      rw [Nat.pow_add]
      exact Nat.mul_le_mul_right _ (Nat.log2_self_le hm₁.ne')

/-- A quotient is brought to an exponent `t` that leaves enough bits, and rounded from there. -/
theorem div_rounds (hm₁ : 0 < m₁) (hm₂ : 0 < m₂) {t : Int} {j : Nat}
    (ht : t = min (e₁ - e₂) (max (m₁.log2 + e₁ - m₂.log2 - e₂ - 53) (-1074)))
    (hj : (e₁ - e₂ - t).toNat = j) :
    UnpackedFloat.div .binary64 (.finite .positive m₁ e₁ hm₁) (.finite .positive m₂ e₂ hm₂) =
      roundWithAccuracy .binary64 .positive (m₁ * 2 ^ j / m₂) t
        (accuracyOfFraction (m₁ * 2 ^ j % m₂) m₂) := by
  have htarget : min (e₁ - e₂) (Format.binary64.targetExponent
      (totalExponent m₁ e₁ - totalExponent m₂ e₂)) = t := by
    simp only [Format.targetExponent, totalExponent, Format.mantissaBits, Format.minExponent]
    norm_num
    omega
  simp only [UnpackedFloat.div, divCore, htarget, hj, Nat.shiftLeft_eq]
  rfl

theorem three_mul_lt_of_floor_le {a b r : Nat} (hb : 0 < b) (hr : a / b ≤ r)
    (hlow : 2 ^ 52 ≤ a / b) : 3 * a < 4 * r * b := by
  have hnext : a < (a / b + 1) * b := by
    rw [← Nat.div_lt_iff_lt_mul hb]
    exact Nat.lt_succ_self _
  calc 3 * a < 3 * ((a / b + 1) * b) := by omega
    _ = 3 * (a / b + 1) * b := (Nat.mul_assoc _ _ _).symm
    _ ≤ 4 * r * b := Nat.mul_le_mul_right _ (by omega)

theorem div_eq (h₁ : Canonical (.finite .positive m₁ e₁ hm₁))
    (h₂ : Canonical (.finite .positive m₂ e₂ hm₂))
    (hle : m₂ * 2 ^ (e₂ + 1074).toNat ≤ m₁ * 2 ^ (e₁ + 1074).toNat) :
    ∃ z : Nat, Counts (UnpackedFloat.div .binary64 (.finite .positive m₁ e₁ hm₁)
        (.finite .positive m₂ e₂ hm₂)) z ∧
      3 * (m₁ * 2 ^ (e₁ + 1074).toNat * unity) < 4 * z * (m₂ * 2 ^ (e₂ + 1074).toNat) := by
  have hexp := exponent_le h₁ h₂ hle
  have hlog₁ : m₁.log2 < 53 := (Nat.log2_lt hm₁.ne').2 h₁.1
  have hlog₂ : m₂.log2 < 53 := (Nat.log2_lt hm₂.ne').2 h₂.1
  have he₂ := h₂.2.1
  obtain ⟨t, ht⟩ : ∃ t, t = min (e₁ - e₂) (max (m₁.log2 + e₁ - m₂.log2 - e₂ - 53) (-1074)) :=
    ⟨_, rfl⟩
  obtain ⟨j, hj⟩ : ∃ j, (e₁ - e₂ - t).toNat = j := ⟨_, rfl⟩
  have hq := bits_of_quotient (j := j) hm₁ hm₂ (by omega)
  obtain ⟨r, hr, hlow, hcounts⟩ := roundWithAccuracy_inexact .positive
    (accuracyOfFraction (m₁ * 2 ^ j % m₂) m₂) hq (t := t) (by omega)
  rw [← div_rounds hm₁ hm₂ ht hj] at hcounts
  obtain ⟨k, hk⟩ : ∃ k, (m₁ * 2 ^ j / m₂).log2 - 52 = k := ⟨_, rfl⟩
  rw [hk] at hr hlow hcounts
  have hfloor : 3 * (m₁ * 2 ^ j) < 4 * r * (m₂ * 2 ^ k) := by
    rw [Nat.div_div_eq_div_mul] at hr hlow
    exact three_mul_lt_of_floor_le (Nat.mul_pos hm₂ (Nat.two_pow_pos k)) hr hlow
  refine ⟨_, hcounts, ?_⟩
  -- Both sides are units of units; the shifts add up to the same power of two.
  obtain ⟨w, hw⟩ : ∃ w, (e₂ + 1074 + t + 1074).toNat = w := ⟨_, rfl⟩
  have hwhole : (e₁ + 1074).toNat + depth = j + w := by
    unfold depth
    omega
  have hpart : (t + k + 1074).toNat + (e₂ + 1074).toNat = k + w := by omega
  have hleft : 2 ^ (e₁ + 1074).toNat * unity = 2 ^ j * 2 ^ w := by
    rw [unity, ← Nat.pow_add, ← Nat.pow_add, hwhole]
  have hright : 2 ^ (t + k + 1074).toNat * 2 ^ (e₂ + 1074).toNat = 2 ^ k * 2 ^ w := by
    rw [← Nat.pow_add, ← Nat.pow_add, hpart]
  calc 3 * (m₁ * 2 ^ (e₁ + 1074).toNat * unity) = 3 * (m₁ * 2 ^ j) * 2 ^ w := by
        rw [mul_assoc, hleft]
        ring
    _ < 4 * r * (m₂ * 2 ^ k) * 2 ^ w := Nat.mul_lt_mul_of_pos_right hfloor (Nat.two_pow_pos w)
    _ = 4 * r * m₂ * (2 ^ (t + k + 1074).toNat * 2 ^ (e₂ + 1074).toNat) := by rw [hright]; ring
    _ = 4 * (r * 2 ^ (t + k + 1074).toNat) * (m₂ * 2 ^ (e₂ + 1074).toNat) := by ring

theorem exists_mantissa {x : Float} (hx : x.isFinite) (hpos : 0 < spot x) :
    ∃ m e, ∃ hm : 0 < m, x.toModel.unpack = .finite .positive m e hm ∧
      Canonical (.finite .positive m e hm) ∧ spot x = (m * 2 ^ (e + 1074).toNat : Nat) := by
  obtain ⟨hc, hfin, hunits⟩ := counts hx
  cases hu : x.toModel.unpack with
  | notANumber | infinity s =>
    rw [hu] at hfin
    cases hfin
  | zero s =>
    rw [hu] at hunits
    exact absurd hunits (by simp only [units]; omega)
  | finite s m e hm =>
    rw [hu] at hc hunits
    cases s with
    | positive => exact ⟨m, e, hm, rfl, hc, hunits.symm⟩
    | negative => simp only [units, Sign.apply] at hunits; omega

/-- Where one positive float is no less than another, their quotient is more than three quarters of
the exact one. -/
theorem three_mul_lt_spot_div {x y : Float} (hx : x.isFinite) (hy : y.isFinite) (hpos : 0 < spot y)
    (hle : spot y ≤ spot x) (hfin : (x / y).isFinite) :
    3 * (spot x * unity) < 4 * spot (x / y) * spot y := by
  obtain ⟨m₁, e₁, hm₁, hu₁, hc₁, hx⟩ := exists_mantissa hx (hpos.trans_le hle)
  obtain ⟨m₂, e₂, hm₂, hu₂, hc₂, hy⟩ := exists_mantissa hy hpos
  rw [hx, hy] at hle
  obtain ⟨z, hz, hlt⟩ := div_eq hc₁ hc₂ (by exact_mod_cast hle)
  have hspot : spot (x / y) = bounded z := by
    rw [← place_fitted hz, ← unpack_pack hz.canonical, ← hu₁, ← hu₂]
    rfl
  have hbound : spot (x / y) = z := by
    have := abs_spot_lt hfin
    rw [hspot, bounded] at this ⊢
    omega
  rw [hbound, hx, hy]
  exact_mod_cast hlt

end Gameroom.Grid
