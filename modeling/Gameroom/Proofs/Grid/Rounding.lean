import Gameroom.Proofs.Grid.Canonical

open Float.Model (Format UnpackedFloat totalExponent)
open Float.Model.UnpackedFloat

namespace Gameroom.Grid

/-! ### Half to even -/

/-- The quotient by a power of two, rounded to the nearest number, a half to the even one. -/
def halfEven (n k : Nat) : Nat :=
  if 2 * (n % 2 ^ k) < 2 ^ k then n / 2 ^ k
  else if 2 * (n % 2 ^ k) = 2 ^ k then n / 2 ^ k + n / 2 ^ k % 2
  else n / 2 ^ k + 1

theorem halfEven_zero (n : Nat) : halfEven n 0 = n := by
  simp [halfEven, Nat.mod_one]

theorem div_le_halfEven (n k : Nat) : n / 2 ^ k ≤ halfEven n k := by
  unfold halfEven
  split_ifs <;> omega

theorem halfEven_le (n k : Nat) : halfEven n k ≤ n / 2 ^ k + 1 := by
  unfold halfEven
  split_ifs <;> omega

theorem halfEven_mono {n n' : Nat} (k : Nat) (h : n ≤ n') : halfEven n k ≤ halfEven n' k := by
  rcases (Nat.div_le_div_right (c := 2 ^ k) h).eq_or_lt with heq | hlt
  · have h1 := Nat.div_add_mod n (2 ^ k)
    have h2 := Nat.div_add_mod n' (2 ^ k)
    rw [← heq] at h2
    unfold halfEven
    rw [← heq]
    split_ifs <;> omega
  · exact (halfEven_le n k).trans (hlt.trans_le (div_le_halfEven n' k))

theorem halfEven_mul_pow (n k j : Nat) : halfEven (n * 2 ^ j) (k + j) = halfEven n k := by
  have hdiv : n * 2 ^ j / 2 ^ (k + j) = n / 2 ^ k := by
    rw [Nat.pow_add]
    exact Nat.mul_div_mul_right _ _ (Nat.two_pow_pos j)
  have hmod : n * 2 ^ j % 2 ^ (k + j) = n % 2 ^ k * 2 ^ j := by
    rw [Nat.pow_add]
    exact Nat.mul_mod_mul_right _ _ _
  have hpos := Nat.two_pow_pos j
  have hlt : 2 * (n % 2 ^ k * 2 ^ j) < 2 ^ (k + j) ↔ 2 * (n % 2 ^ k) < 2 ^ k := by
    rw [Nat.pow_add, ← Nat.mul_assoc]
    exact Nat.mul_lt_mul_right hpos
  have heq : 2 * (n % 2 ^ k * 2 ^ j) = 2 ^ (k + j) ↔ 2 * (n % 2 ^ k) = 2 ^ k := by
    rw [Nat.pow_add, ← Nat.mul_assoc]
    exact Nat.mul_left_inj (Nat.ne_of_gt hpos)
  simp only [halfEven, hdiv, hmod, hlt, heq]

/-! ### Shifting out bits -/

/-- The bit that is shifted out last tells whether the rest is half a unit or more, the other one
whether it is anything else than nothing and half a unit. -/
theorem shiftRight_exact (m k : Nat) :
    ((⟨m, false, false⟩ : ExtendedMantissa) >>> k) =
      ⟨m / 2 ^ k, decide (2 ^ k ≤ 2 * (m % 2 ^ k)),
        decide (m % 2 ^ k ≠ 0 ∧ 2 * (m % 2 ^ k) ≠ 2 ^ k)⟩ := by
  change Nat.repeat ExtendedMantissa.shiftRightOne k _ = _
  induction k with
  | zero => simp [Nat.repeat, Nat.mod_one]
  | succ k ih =>
    have hpos := Nat.two_pow_pos k
    have hmod : m % 2 ^ (k + 1) = m % 2 ^ k + 2 ^ k * (m / 2 ^ k % 2) := by
      rw [Nat.pow_succ, Nat.mod_mul]
    have hlt := Nat.mod_lt m hpos
    -- The last bit of the quotient is the one that is shifted out now.
    have hbit : m / 2 ^ k % 2 = 0 ∨ m / 2 ^ k % 2 = 1 := by omega
    rw [Nat.repeat, ih, ExtendedMantissa.shiftRightOne, ExtendedMantissa.mk.injEq]
    refine ⟨?_, ?_, ?_⟩
    · rw [Nat.div_div_eq_div_mul, ← Nat.pow_succ]
    · rw [Bool.eq_iff_iff, decide_eq_true_iff, bne_iff_ne, hmod, Nat.pow_succ]
      rcases hbit with h | h <;> rw [h] <;> omega
    · rw [Bool.eq_iff_iff, Bool.or_eq_true, decide_eq_true_iff, decide_eq_true_iff,
        decide_eq_true_iff, hmod, Nat.pow_succ]
      rcases hbit with h | h <;> rw [h] <;> omega

theorem roundedMantissa_shiftRight (m k : Nat) :
    ((⟨m, false, false⟩ : ExtendedMantissa) >>> k).roundedMantissa = halfEven m k := by
  have hpos := Nat.two_pow_pos k
  rw [shiftRight_exact]
  rcases lt_trichotomy (2 * (m % 2 ^ k)) (2 ^ k) with h | h | h
  · by_cases h0 : m % 2 ^ k = 0
    · simp [ExtendedMantissa.roundedMantissa, ExtendedMantissa.accuracy, halfEven,
        Accuracy.roundToNearestEven, h0]
    · simp [ExtendedMantissa.roundedMantissa, ExtendedMantissa.accuracy, halfEven,
        Accuracy.roundToNearestEven, h0, h, Nat.not_le.2 h, h.ne]
  · have h0 : m % 2 ^ k ≠ 0 := by omega
    simp [ExtendedMantissa.roundedMantissa, ExtendedMantissa.accuracy, halfEven,
      Accuracy.roundToNearestEven, h]
  · have h0 : m % 2 ^ k ≠ 0 := by omega
    simp [ExtendedMantissa.roundedMantissa, ExtendedMantissa.accuracy, halfEven,
      Accuracy.roundToNearestEven, h0, h.le, h.ne', Nat.not_lt.2 h.le]

/-! ### Rounding to 53 bits -/

/-- A count rounded to 53 bits. -/
def rounded (n : Nat) : Nat := halfEven n (n.log2 - 52) * 2 ^ (n.log2 - 52)

theorem halfEven_le_bits (n : Nat) : halfEven n (n.log2 - 52) ≤ 2 ^ 53 := by
  refine (halfEven_le _ _).trans (Nat.succ_le_of_lt ?_)
  rw [Nat.div_lt_iff_lt_mul (Nat.two_pow_pos _), ← Nat.pow_add]
  exact Nat.lt_log2_self.trans_le (Nat.pow_le_pow_right (by decide) (by omega))

theorem bits_le_halfEven {n : Nat} (h : 52 ≤ n.log2) : 2 ^ 52 ≤ halfEven n (n.log2 - 52) := by
  refine le_trans ?_ (div_le_halfEven _ _)
  rw [Nat.le_div_iff_mul_le (Nat.two_pow_pos _), ← Nat.pow_add, Nat.add_sub_cancel' h]
  exact Nat.log2_self_le (by rintro rfl; simp at h)

theorem rounded_le {n : Nat} : rounded n ≤ 2 ^ (max n.log2 52 + 1) := by
  calc rounded n ≤ 2 ^ 53 * 2 ^ (n.log2 - 52) := Nat.mul_le_mul_right _ (halfEven_le_bits n)
    _ = 2 ^ (max n.log2 52 + 1) := by rw [← Nat.pow_add]; congr 1; omega

theorem pow_log2_le_rounded {n : Nat} (h : 52 ≤ n.log2) : 2 ^ n.log2 ≤ rounded n := by
  calc 2 ^ n.log2 = 2 ^ 52 * 2 ^ (n.log2 - 52) := by rw [← Nat.pow_add]; congr 1; omega
    _ ≤ rounded n := Nat.mul_le_mul_right _ (bits_le_halfEven h)

theorem log2_mono {n n' : Nat} (h : n ≤ n') : n.log2 ≤ n'.log2 := by
  rcases Nat.eq_zero_or_pos n with rfl | hn
  · simp
  · exact (Nat.le_log2 (by omega)).2 ((Nat.log2_self_le hn.ne').trans h)

theorem rounded_mono {n n' : Nat} (h : n ≤ n') : rounded n ≤ rounded n' := by
  have hlog := log2_mono h
  by_cases hsame : n.log2 - 52 = n'.log2 - 52
  · rw [rounded, rounded, ← hsame]
    exact Nat.mul_le_mul_right _ (halfEven_mono _ h)
  -- The units differ, so a power of two stands between the two.
  · calc rounded n ≤ 2 ^ (max n.log2 52 + 1) := rounded_le
      _ ≤ 2 ^ n'.log2 := Nat.pow_le_pow_right (by decide) (by omega)
      _ ≤ rounded n' := pow_log2_le_rounded (by omega)

theorem rounded_of_lt {n : Nat} (h : n < 2 ^ 53) : rounded n = n := by
  have : n.log2 - 52 = 0 := by
    rcases Nat.eq_zero_or_pos n with rfl | hn
    · simp
    · have := (Nat.log2_lt (by omega)).2 h
      omega
  simp [rounded, this, halfEven_zero]

theorem log2_mul_pow {m : Nat} (h : 0 < m) (k : Nat) : (m * 2 ^ k).log2 = m.log2 + k := by
  rw [Nat.log2_eq_iff (Nat.ne_of_gt (Nat.mul_pos h (Nat.two_pow_pos k)))]
  have h1 := Nat.log2_self_le (Nat.ne_of_gt h)
  have h2 := Nat.lt_log2_self (n := m)
  constructor
  · rw [Nat.pow_add]
    exact Nat.mul_le_mul_right _ h1
  · calc m * 2 ^ k < 2 ^ (m.log2 + 1) * 2 ^ k :=
        Nat.mul_lt_mul_of_pos_right h2 (Nat.two_pow_pos k)
      _ = 2 ^ (m.log2 + k + 1) := by rw [← Nat.pow_add]; congr 1; omega

theorem rounded_mul_pow {m : Nat} (h : m < 2 ^ 53) (k : Nat) : rounded (m * 2 ^ k) = m * 2 ^ k := by
  rcases Nat.eq_zero_or_pos m with rfl | hm
  · simp [rounded_of_lt]
  have hlog : m.log2 ≤ 52 := by
    have := (Nat.log2_lt (by omega)).2 h
    omega
  rw [rounded, log2_mul_pow hm]
  obtain ⟨j, hj⟩ : ∃ j, k = j + (m.log2 + k - 52) := ⟨k - (m.log2 + k - 52), by omega⟩
  have : m * 2 ^ k = m * 2 ^ j * 2 ^ (m.log2 + k - 52) := by
    rw [Nat.mul_assoc, ← Nat.pow_add, ← hj]
  have hdiv := halfEven_mul_pow (m * 2 ^ j) 0 (m.log2 + k - 52)
  rw [Nat.zero_add, halfEven_zero, ← this] at hdiv
  rw [hdiv, ← this]

/-! ### The units of a float -/

/-- How many units `2 ^ (-1074)` a finite float counts. -/
def units : UnpackedFloat → Int
  | .finite s m e _ => s.apply (m * 2 ^ (e + 1074).toNat : Nat)
  | _ => 0

/-- A finite float that counts so many units. -/
structure Counts (u : UnpackedFloat) (z : Int) : Prop where
  canonical : Canonical u
  finite : u.isFinite
  units_eq : units u = z

theorem targetExponent_eq (m : Nat) (e : Int) :
    Format.binary64.targetExponent (totalExponent m e) = max (m.log2 + e - 52) (-1074) := by
  simp only [Format.targetExponent, totalExponent, Format.mantissaBits, Format.minExponent]
  norm_num
  congr 1
  omega

theorem shiftToTargetExponent_of_lt {m : Nat} {e : Int} (hm : m < 2 ^ 53) (he : -1074 ≤ e) :
    shiftToTargetExponent .binary64 m e .exact = (⟨m, false, false⟩, e) := by
  have hlog : m.log2 ≤ 52 := by
    rcases Nat.eq_zero_or_pos m with rfl | h
    · simp
    · have := (Nat.log2_lt (by omega)).2 hm
      omega
  have hshift : (max (m.log2 + e - 52) (-1074) - e).toNat = 0 := by omega
  simp only [shiftToTargetExponent, shiftToExponent, targetExponent_eq, hshift,
    ExtendedMantissa.ofMantissaAndAccuracy]
  exact Prod.ext rfl (by simp)

theorem shiftToTargetExponent_carry {e : Int} (he : -1074 ≤ e) :
    shiftToTargetExponent .binary64 (2 ^ 53) e .exact = (⟨2 ^ 52, false, false⟩, e + 1) := by
  have hshift : (max (((2 ^ 53 : Nat).log2 : Int) + e - 52) (-1074) - e).toNat = 1 := by
    rw [Nat.log2_two_pow]
    omega
  simp only [shiftToTargetExponent, shiftToExponent, targetExponent_eq, hshift,
    ExtendedMantissa.ofMantissaAndAccuracy]
  exact Prod.ext rfl (by simp)

def assembled (s : Sign) (r : ExtendedMantissa × Int) : UnpackedFloat :=
  if h : r.1.mantissa = 0 then .zero s else .finite s r.1.mantissa r.2 (Nat.pos_of_ne_zero h)

theorem assembled_eq {s : Sign} {r : Nat} {t : Int} (hr : r ≤ 2 ^ 53) (ht : -1074 ≤ t)
    (hlow : 2 ^ 52 ≤ r ∨ t = -1074) :
    Counts (assembled s (shiftToTargetExponent .binary64 r t .exact))
      (s.apply (r * 2 ^ (t + 1074).toNat : Nat)) := by
  rcases hr.lt_or_eq with hlt | rfl
  · rw [shiftToTargetExponent_of_lt hlt ht, assembled]
    by_cases h0 : r = 0
    · subst h0
      refine ⟨by simp [Canonical], by simp [isFinite], ?_⟩
      cases s <;> simp [units, Sign.apply]
    · simp only [dif_neg h0]
      exact ⟨⟨hlt, ht, hlow⟩, rfl, rfl⟩
  · rw [shiftToTargetExponent_carry ht, assembled, dif_neg (by simp)]
    refine ⟨⟨by simp, by omega, Or.inl le_rfl⟩, rfl, ?_⟩
    have hj : (t + 1 + 1074).toNat = (t + 1074).toNat + 1 := by omega
    simp only [units, hj, Nat.pow_succ]
    congr 2
    ring

theorem roundWithAccuracy_shifted (s : Sign) {m k : Nat} {e : Int} (hm : 0 < m)
    (hk : max (m.log2 + e - 52) (-1074) = e + k) :
    Counts (roundWithAccuracy .binary64 s m e .exact)
      (s.apply (halfEven m k * 2 ^ (e + k + 1074).toNat : Nat)) := by
  have hlog := Nat.lt_log2_self (n := m)
  have hfirst : shiftToTargetExponent .binary64 m e .exact =
      (((⟨m, false, false⟩ : ExtendedMantissa) >>> k), e + k) := by
    have hshift : (max ((m.log2 : Int) + e - 52) (-1074) - e).toNat = k := by omega
    simp only [shiftToTargetExponent, shiftToExponent, targetExponent_eq, hshift,
      ExtendedMantissa.ofMantissaAndAccuracy]
  -- Rounding can carry to 54 bits; then `assembled_eq` shifts once more.
  have hround : roundWithAccuracy .binary64 s m e .exact =
      assembled s (shiftToTargetExponent .binary64 (halfEven m k) (e + k) .exact) := by
    rw [← roundedMantissa_shiftRight, roundWithAccuracy, hfirst]
    rfl
  have hhigh : m / 2 ^ k < 2 ^ 53 := by
    rw [Nat.div_lt_iff_lt_mul (Nat.two_pow_pos k), ← Nat.pow_add]
    exact hlog.trans_le (Nat.pow_le_pow_right Nat.two_pos (by omega))
  have hle := halfEven_le m k
  have hge := div_le_halfEven m k
  rw [hround]
  refine assembled_eq (by omega) (by omega) ?_
  by_cases hnormal : e + k = -1074
  · exact .inr hnormal
  · have hlow : 2 ^ 52 ≤ m / 2 ^ k := by
      rw [Nat.le_div_iff_mul_le (Nat.two_pow_pos k), ← Nat.pow_add]
      exact (Nat.pow_le_pow_right Nat.two_pos (by omega)).trans (Nat.log2_self_le hm.ne')
    exact .inl (hlow.trans hge)

theorem roundWithAccuracy_eq (s : Sign) {m : Nat} {e : Int} (hm : 0 < m) (he : -1074 ≤ e)
    (hbits : e ≤ max (m.log2 + e - 52) (-1074)) :
    Counts (roundWithAccuracy .binary64 s m e .exact)
      (s.apply (rounded (m * 2 ^ (e + 1074).toNat) : Nat)) := by
  obtain ⟨k, hk⟩ : ∃ k : Nat, max (m.log2 + e - 52) (-1074) = e + k :=
    ⟨(max (m.log2 + e - 52) (-1074) - e).toNat, by omega⟩
  have hlog := log2_mul_pow hm (e + 1074).toNat
  have hunit : (m * 2 ^ (e + 1074).toNat).log2 - 52 = k + (e + 1074).toNat := by omega
  have hhalf : halfEven (m * 2 ^ (e + 1074).toNat) (k + (e + 1074).toNat) = halfEven m k :=
    halfEven_mul_pow m k _
  have hj : (e + k + 1074).toNat = k + (e + 1074).toNat := by omega
  rw [rounded, hunit, hhalf, ← hj]
  exact roundWithAccuracy_shifted s hm hk

theorem decreaseExponent_eq (m : Nat) (e t : Int) :
    decreaseExponent m e t = (m * 2 ^ (e - t).toNat, e - (e - t).toNat) := by
  rw [decreaseExponent, Nat.shiftLeft_eq]

theorem round_eq (s : Sign) {m : Nat} {e : Int} (hm : 0 < m) (he : -1074 ≤ e) :
    Counts (UnpackedFloat.round .binary64 s m e)
      (s.apply (rounded (m * 2 ^ (e + 1074).toNat) : Nat)) := by
  obtain ⟨j, hj⟩ : ∃ j, (e - max (m.log2 + e - 52) (-1074)).toNat = j := ⟨_, rfl⟩
  have hround : UnpackedFloat.round .binary64 s m e =
      roundWithAccuracy .binary64 s (m * 2 ^ j) (e - j) .exact := by
    simp only [UnpackedFloat.round, targetExponent_eq, decreaseExponent_eq, hj]
  have hlog := log2_mul_pow hm j
  have hunits : m * 2 ^ j * 2 ^ (e - j + 1074).toNat = m * 2 ^ (e + 1074).toNat := by
    rw [Nat.mul_assoc, ← Nat.pow_add]
    congr 2
    omega
  rw [hround, ← hunits]
  exact roundWithAccuracy_eq s (Nat.mul_pos hm (Nat.two_pow_pos j)) (by omega) (by omega)

def roundedInt (z : Int) : Int := if 0 ≤ z then rounded z.toNat else -rounded (-z).toNat

theorem normalize_eq (z : Int) {e : Int} (he : -1074 ≤ e) (s : Sign) :
    Counts (UnpackedFloat.normalize .binary64 z e s) (roundedInt (z * 2 ^ (e + 1074).toNat)) := by
  have hpos : (0 : Int) < 2 ^ (e + 1074).toNat := by positivity
  unfold UnpackedFloat.normalize
  rcases lt_trichotomy z 0 with h | rfl | h
  · have hneg : z * 2 ^ (e + 1074).toNat < 0 := mul_neg_of_neg_of_pos h hpos
    have hnat : (-(z * 2 ^ (e + 1074).toNat)).toNat = (-z).toNat * 2 ^ (e + 1074).toNat := by
      zify
      rw [Int.toNat_of_nonneg (by omega), Int.toNat_of_nonneg (by omega)]
      ring
    have hround := round_eq .negative (m := (-z).toNat) (by omega) he
    rw [Int.compare_eq_lt.2 h, roundedInt, if_neg (by omega), hnat]
    exact hround
  · exact ⟨trivial, rfl, by simp [units, roundedInt, rounded_of_lt]⟩
  · have hnat : (z * 2 ^ (e + 1074).toNat).toNat = z.toNat * 2 ^ (e + 1074).toNat := by
      have := mul_pos h hpos
      zify
      rw [Int.toNat_of_nonneg (by omega), Int.toNat_of_nonneg (by omega)]
    have hround := round_eq .positive (m := z.toNat) (by omega) he
    rw [Int.compare_eq_gt.2 h, roundedInt, if_pos (by positivity), hnat]
    exact hround

end Gameroom.Grid
