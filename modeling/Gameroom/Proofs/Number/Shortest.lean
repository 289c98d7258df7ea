import Gameroom.Number.Written
import Gameroom.Proofs.Grid.Nearest
import Gameroom.Proofs.Number.Exact

/-!
Decimals and floats. A decimal is read as a float if it is among the numbers that are rounded to it,
and the shortest decimal of a float is read as this float.
-/

open Float.Model (Format UnpackedFloat)
open Float.Model.UnpackedFloat

namespace Gameroom

namespace Grid
variable {x : Float} {s : Sign} {n k m : Nat} {e : Int} {hm : 0 < m}

/-! ### Decimals that are read -/

theorem ofScientific_nearest (hn : 0 < n) (hk : k ≤ 2048 + n.log2) :
    ∃ r w, Counts (UnpackedFloat.ofScientific .binary64 n (-k)) (r * 2 ^ w : Nat) ∧
      Nearest (n / 10 ^ k * 2 ^ depth) r w := by
  rcases Nat.eq_zero_or_pos k with rfl | hpos
  · have hunits : 2 ^ 54 ≤ n * unity :=
      (Nat.pow_le_pow_right Nat.two_pos (by decide)).trans (Nat.le_mul_of_pos_left unity hn)
    obtain ⟨r, w, hround, hnearest⟩ := rounded_nearest hunits
    have hcounts := ofInt_counts n
    rw [← Nat.cast_mul, roundedInt_natCast, hround] at hcounts
    refine ⟨r, w, ?_, ?_⟩
    · rw [Nat.cast_zero, neg_zero, ofScientific_eq]
      exact hcounts
    · rw [pow_zero, div_one]
      rw [unity] at hnearest
      exact_mod_cast hnearest
  · obtain ⟨r, w, hcounts, hnearest⟩ := div_nearest hn (Nat.pow_pos (by decide : 0 < 10) (n := k))
    refine ⟨r, w, ?_, by exact_mod_cast hnearest⟩
    have hbits : (2 : Int) ^ Format.binary64.exponentBits = 2048 := rfl
    have htoNat : (- -(k : Int)).toNat = k := by omega
    simp only [UnpackedFloat.ofScientific, hbits]
    rw [dif_neg hn.ne', if_neg (by omega), if_neg (by omega), if_neg (by omega)]
    simpa only [htoNat] using hcounts

theorem notNaN_floatOfDecimal (n k : Nat) : (floatOfDecimal n (-k)).isNaN = false := by
  rcases Nat.eq_zero_or_pos n with rfl | hn
  · exact zero_notNaN
  by_cases hk : k ≤ 2048 + n.log2
  · obtain ⟨r, w, hcounts, -⟩ := ofScientific_nearest hn hk
    exact notNaN_of_counts (unpack_ofModel_pack hcounts.canonical) hcounts
  · have hzero : UnpackedFloat.ofScientific .binary64 n (-k) = .zero .positive := by
      have hbits : (2 : Int) ^ Format.binary64.exponentBits = 2048 := rfl
      simp only [UnpackedFloat.ofScientific, hbits]
      rw [dif_neg hn.ne', if_neg (by omega), if_pos (by omega)]
    have hunpack : (floatOfDecimal n (-k)).toModel.unpack = .zero .positive := by
      change unpack .binary64 (pack .binary64 (UnpackedFloat.ofScientific .binary64 n (-k))) = _
      rw [hzero]
      exact unpack_pack trivial
    change (floatOfDecimal n (-k)).toModel.unpack.isNaN = false
    rw [hunpack]
    rfl

theorem spot_of_unpack (hu : x.toModel.unpack = .finite s m e hm) :
    x.isFinite ∧ |spot x| = (m * 2 ^ (e + 1074).toNat : Nat) := by
  constructor
  · change x.toModel.unpack.isFinite = true
    rw [hu]
    rfl
  · rw [spot, hu]
    cases s with
    | negative => exact (abs_neg _).trans (Nat.abs_cast _)
    | positive => exact Nat.abs_cast _

theorem canonical_of_unpack (hu : x.toModel.unpack = .finite s m e hm) :
    -1074 ≤ e ∧ Fit m (e + 1074).toNat := by
  obtain ⟨hbits, he, hlow⟩ := hu ▸ (fits x).1
  exact ⟨he, hbits, hlow.imp_right (by omega)⟩

theorem spot_floatOfDecimal_iff (hu : x.toModel.unpack = .finite s m e hm) (hn : 0 < n)
    (hk : k ≤ 2048) :
    spot (floatOfDecimal n (-k)) = |spot x| ↔
      Near m (e + 1074).toNat (n / 10 ^ k * 2 ^ depth) := by
  obtain ⟨hfin, hx⟩ := spot_of_unpack hu
  obtain ⟨-, hfit⟩ := canonical_of_unpack hu
  obtain ⟨r, w, hcounts, hnearest⟩ := ofScientific_nearest hn (hk.trans (Nat.le_add_right _ _))
  have hread : spot (floatOfDecimal n (-k)) = bounded (r * 2 ^ w : Nat) := by
    rw [← place_fitted hcounts, ← unpack_ofModel_pack hcounts.canonical]
    rfl
  have hlim := abs_lt.2 (abs_spot_lt hfin)
  have hpos := Nat.mul_pos hm (Nat.two_pow_pos (e + 1074).toNat)
  have hbound : bounded (r * 2 ^ w : Nat) = |spot x| ↔ r * 2 ^ w = m * 2 ^ (e + 1074).toNat := by
    rw [hx] at hlim ⊢
    unfold bounded
    omega
  rw [hread, hbound]
  exact ⟨hnearest.near hfit, hnearest.eq hfit⟩

/-! ### What is rounded to a float -/

variable {r : ℚ} {w : Nat}

theorem units_eq (he : -1074 ≤ e) : (2 : ℚ) ^ (e + 1074).toNat = 2 ^ e * 2 ^ depth := by
  rw [← zpow_natCast, ← zpow_natCast, ← zpow_add₀ two_ne_zero]
  congr 1
  unfold depth
  omega

theorem Near.close (he : -1074 ≤ e) (h : Near m (e + 1074).toNat (r * 2 ^ depth)) :
    2 * |(m * 2 ^ e : ℚ) - r| ≤ 2 ^ e := by
  have hdepth : (0 : ℚ) < 2 ^ depth := by positivity
  have hlow := h.low_ge
  have hhigh := h.high
  rw [units_eq he, ← mul_assoc, ← mul_assoc, mul_le_mul_iff_left₀ hdepth] at hlow hhigh
  rw [← le_div_iff₀' two_pos, abs_le]
  constructor <;> linarith

theorem Near.pos (hm : 0 < m) (h : Near m w (r * 2 ^ depth)) : 0 < r := by
  have hdepth : (0 : ℚ) < 2 ^ depth := by positivity
  have hunit : (0 : ℚ) < 2 ^ w := by positivity
  have hone : (1 : ℚ) ≤ m := by exact_mod_cast hm
  have hpos : (0 : ℚ) < (4 * m - 2) * 2 ^ w := mul_pos (by linarith) hunit
  exact pos_of_mul_pos_left (by linarith [h.low_ge] : 0 < r * 2 ^ depth) hdepth.le

end Grid

/-! ### The shortest decimal -/

namespace Decimal

def value (d : Decimal) : ℚ := d.digits * 10 ^ d.exponent

theorem value_stripZeros (fuel : Nat) (d : Decimal) : (stripZeros fuel d).value = d.value := by
  induction fuel generalizing d with
  | zero => rfl
  | succ fuel ih =>
    rw [stripZeros]
    split_ifs with hzero
    · rw [ih, value, value, zpow_add_one₀ (by norm_num)]
      have hdigits : (d.digits : ℚ) = (d.digits / 10 : Nat) * 10 := by
        exact_mod_cast (Nat.div_mul_cancel (Nat.dvd_of_mod_eq_zero hzero.2)).symm
      rw [hdigits]
      ring
    · rfl

theorem exponent_stripZeros (fuel : Nat) (d : Decimal) :
    d.exponent ≤ (stripZeros fuel d).exponent := by
  induction fuel generalizing d with
  | zero => exact le_rfl
  | succ fuel ih =>
    rw [stripZeros]
    split_ifs
    · exact (Int.le_of_lt (Int.lt_succ _)).trans (ih _)
    · exact le_rfl

theorem value_lt_iff {d : Decimal} (hd : 0 < d.digits) {k : Int} :
    d.value < 10 ^ k ↔ d.point ≤ k := by
  obtain ⟨l, hl⟩ : ∃ l, (Nat.toDigits 10 d.digits).length = l + 1 :=
    Nat.exists_eq_succ_of_ne_zero Nat.length_toDigits_pos.ne'
  have hpoint : d.point = l + 1 + d.exponent := congrArg (fun n : Nat => (n : Int) + _) hl
  have hhigh : d.digits < 10 ^ (l + 1) :=
    (Nat.length_toDigits_le_iff (by decide) l.succ_pos).1 hl.le
  -- The digits have no zero in front, so their number tells the power of ten below them.
  have hlow : 10 ^ l ≤ d.digits := by
    rcases Nat.eq_zero_or_pos l with rfl | hpos
    · exact hd
    · by_contra hless
      have := (Nat.length_toDigits_le_iff (by decide) hpos).2 (not_le.1 hless)
      omega
  have hten : (0 : ℚ) < 10 ^ d.exponent := by positivity
  constructor
  · intro hvalue
    by_contra hless
    have hpow : (10 : ℚ) ^ k ≤ 10 ^ (l + d.exponent) := zpow_le_zpow_right₀ (by norm_num) (by omega)
    rw [zpow_add₀ (by norm_num), zpow_natCast] at hpow
    have hdigits : (10 : ℚ) ^ l ≤ d.digits := by exact_mod_cast hlow
    have := mul_le_mul_of_nonneg_right hdigits hten.le
    rw [Decimal.value] at hvalue
    linarith
  · intro hle
    have hdigits : (d.digits : ℚ) < 10 ^ (l + 1) := by exact_mod_cast hhigh
    calc d.value < 10 ^ (l + 1) * 10 ^ d.exponent := mul_lt_mul_of_pos_right hdigits hten
      _ = 10 ^ ((l + 1 : Nat) + d.exponent) := by rw [zpow_add₀ (by norm_num), zpow_natCast]
      _ ≤ 10 ^ k := zpow_le_zpow_right₀ (by norm_num) (by push_cast; omega)

end Decimal

theorem zpow_split {b : ℚ} (hb : b ≠ 0) (i : Int) : b ^ i * b ^ (-i).toNat = b ^ i.toNat := by
  rw [← zpow_natCast, ← zpow_natCast, ← zpow_add₀ hb]
  congr 1
  omega

theorem compare_mul_pos {c : ℚ} (hc : 0 < c) (p q : ℚ) : compare (p * c) (q * c) = compare p q := by
  rw [← cmp_eq_compare, ← cmp_eq_compare]
  exact (strictMono_mul_right_of_pos hc).cmp_map_eq p q

theorem compare_cast (a b : Nat) : compare (a : ℚ) b = compare a b := by
  rw [← cmp_eq_compare, ← cmp_eq_compare]
  exact (Nat.strictMono_cast (α := ℚ)).cmp_map_eq a b

namespace Binade

theorem compareScaled_eq (a : Nat) (i : Int) (n : Nat) (j : Int) :
    compareScaled a i n j = compare ((a : ℚ) * 10 ^ i) (n * 2 ^ j) := by
  have hten := zpow_split (by norm_num : (10 : ℚ) ≠ 0) i
  have htwo := zpow_split (by norm_num : (2 : ℚ) ≠ 0) j
  have hpos : (0 : ℚ) < 10 ^ (-i).toNat * 2 ^ (-j).toNat := by positivity
  rw [compareScaled, ← compare_cast, ← compare_mul_pos hpos (a * 10 ^ i)]
  simp only [Nat.pow_eq]
  push_cast
  rw [← hten, ← htwo]
  congr 1 <;> ring

open Grid
variable {m : Nat} {e : Int} {d : Decimal}

def ofParts (m : Nat) (e : Int) : Binade := ⟨m, e, m == Nat.pow 2 52 && decide (-1074 < e)⟩

theorem narrow_ofParts : (ofParts m e).narrow ↔ m = 2 ^ 52 ∧ 0 < (e + 1074).toNat := by
  rw [ofParts, Bool.and_eq_true, beq_iff_eq, decide_eq_true_iff]
  exact and_congr_right' (by omega)

theorem compareScaled_quarters (he : -1074 ≤ e) (n : Nat) :
    compareScaled d.digits d.exponent n (e - 2) =
      compare (4 * (d.value * 2 ^ depth)) (n * 2 ^ (e + 1074).toNat) := by
  have hunits : (2 : ℚ) ^ (e - 2) * (4 * 2 ^ depth) = 2 ^ (e + 1074).toNat := by
    have hfour : (4 : ℚ) = 2 ^ (2 : Int) := by norm_num
    rw [hfour, ← zpow_natCast, ← zpow_natCast, ← zpow_add₀ two_ne_zero, ← zpow_add₀ two_ne_zero]
    congr 1
    unfold depth
    omega
  have hpos : (0 : ℚ) < 4 * 2 ^ depth := by positivity
  rw [compareScaled_eq, ← compare_mul_pos hpos, mul_assoc, mul_assoc, hunits, Decimal.value]
  congr 1
  ring

theorem readsBack_iff (hm : 0 < m) (he : -1074 ≤ e) :
    (ofParts m e).readsBack d ↔ Near m (e + 1074).toNat (d.value * 2 ^ depth) := by
  have hlower : ((if (ofParts m e).narrow then 4 * m - 1 else 4 * m - 2 : Nat) : ℚ) =
      lowest m (e + 1074).toNat := by
    rw [lowest, if_congr narrow_ofParts rfl rfl]
    split_ifs <;> rw [Nat.cast_sub (by omega)] <;> norm_num
  have hmantissa : (ofParts m e).mantissa = m := rfl
  have hexponent : (ofParts m e).exponent = e := rfl
  simp only [readsBack, hmantissa, hexponent, compareScaled_quarters he, hlower, Bool.and_eq_true,
    Bool.or_eq_true, beq_iff_eq, compare_lt_iff_lt, compare_gt_iff_gt, compare_eq_iff_eq]
  push_cast
  rw [← Nat.even_iff]
  -- Strictly inside both bounds, or on one of them with an even mantissa.
  constructor
  · rintro ⟨hlow, hhigh⟩
    refine ⟨?_, ?_, ?_⟩
    · rcases hlow with h | h
      · exact h.le
      · exact h.2.ge
    · rcases hhigh with h | h
      · exact h.le
      · exact h.2.le
    · rintro (h | h)
      · exact (hlow.resolve_left h.not_gt).1
      · exact (hhigh.resolve_left h.not_lt).1
  · rintro ⟨hlow, hhigh, heven⟩
    exact ⟨hlow.lt_or_eq.imp id fun h => ⟨heven (.inl h.symm), h.symm⟩,
      hhigh.lt_or_eq.imp id fun h => ⟨heven (.inr h), h⟩⟩

theorem onGrid?_readsBack {b : Binade} {i : Int} (h : b.onGrid? i = some d) : b.readsBack d := by
  unfold onGrid? at h
  dsimp only at h
  split at h
  · cases h
  · rename_i hlo hhi
    obtain rfl := Option.some.inj h
    exact (Bool.and_eq_true_iff.1 hlo).1
  · rename_i hlo hhi
    obtain rfl := Option.some.inj h
    exact hhi
  · rename_i hlo hhi
    have hlo := (Bool.and_eq_true_iff.1 hlo).1
    split at h <;> obtain rfl := Option.some.inj h
    · exact hlo
    · exact hhi
    · split_ifs
      · exact hlo
      · exact hhi

theorem exponent_onGrid? {b : Binade} {i : Int} (h : b.onGrid? i = some d) : d.exponent = i := by
  unfold onGrid? at h
  dsimp only at h
  split at h
  · cases h
  · exact (Option.some.inj h) ▸ rfl
  · exact (Option.some.inj h) ▸ rfl
  · split at h <;> obtain rfl := Option.some.inj h
    · rfl
    · rfl
    · split_ifs <;> rfl

theorem search_readsBack {b : Binade} {top : Int} {fuel n : Nat}
    (h : b.search top fuel n = some d) : b.readsBack d := by
  induction fuel generalizing n with
  | zero => cases h
  | succ fuel ih =>
    rw [search] at h
    split at h
    · rename_i found hfound
      obtain rfl := Option.some.inj h
      exact onGrid?_readsBack hfound
    · exact ih h

theorem value_exact : (ofParts m e).exact.value = m * 2 ^ e := by
  have htwo := zpow_split (by norm_num : (2 : ℚ) ≠ 0) e
  have hten : (10 : ℚ) ^ min e 0 = 2 ^ min e 0 * 5 ^ min e 0 := by
    rw [← mul_zpow]
    norm_num
  have hfive : (5 : ℚ) ^ (-e).toNat * 5 ^ min e 0 = 1 := by
    rw [← zpow_natCast, ← zpow_add₀ (by norm_num), show ((-e).toNat : Int) + min e 0 = 0 by omega,
      zpow_zero]
  have hback : (2 : ℚ) ^ (-e).toNat * 2 ^ min e 0 = 1 := by
    rw [← zpow_natCast, ← zpow_add₀ (by norm_num), show ((-e).toNat : Int) + min e 0 = 0 by omega,
      zpow_zero]
  simp only [Decimal.value, exact, ofParts, Nat.pow_eq]
  push_cast
  rw [← htwo, hten]
  linear_combination (m * 2 ^ e * (2 : ℚ) ^ (-e).toNat * 2 ^ min e 0) * hfive +
    (m * (2 : ℚ) ^ e) * hback

theorem near_self : Near m (e + 1074).toNat (m * 2 ^ (e + 1074).toNat) := by
  have hpos : (0 : ℚ) < 2 ^ (e + 1074).toNat := by positivity
  have hlow : lowest m (e + 1074).toNat < 4 * m := by
    unfold lowest
    split_ifs <;> linarith
  have hlow := mul_lt_mul_of_pos_right hlow hpos
  refine ⟨by linarith, by linarith, ?_⟩
  rintro (h | h) <;> linarith

theorem near_shortest (hm : 0 < m) (he : -1074 ≤ e) :
    Near m (e + 1074).toNat ((ofParts m e).shortest.value * 2 ^ depth) := by
  rw [shortest, Decimal.stripped, Decimal.value_stripZeros]
  cases h : (ofParts m e).search (ofParts m e).scale 17 1 with
  | some d => exact (readsBack_iff hm he).1 (search_readsBack h)
  | none =>
    rw [Option.getD_none, value_exact, mul_assoc, ← units_eq he]
    exact near_self

theorem exponent_search {b : Binade} {top : Int} {fuel n : Nat} (h : b.search top fuel n = some d) :
    top - (n + fuel) ≤ d.exponent := by
  induction fuel generalizing n with
  | zero => cases h
  | succ fuel ih =>
    rw [search] at h
    split at h
    · rename_i found hfound
      obtain rfl := Option.some.inj h
      rw [exponent_onGrid? hfound]
      omega
    · have := ih h
      push_cast at this ⊢
      omega

theorem scale_ge (he : -1074 ≤ e) : -324 ≤ (ofParts m e).scale := by
  have hfirst : -324 ≤ Int.fdiv ((m.log2 + e) * 30103) 100000 := by
    rw [Int.fdiv_eq_ediv_of_nonneg _ (by decide)]
    omega
  unfold scale
  dsimp only
  split_ifs <;> simp only [ofParts] <;> omega

theorem exponent_shortest (he : -1074 ≤ e) : -1074 ≤ (ofParts m e).shortest.exponent := by
  refine le_trans ?_ (Decimal.exponent_stripZeros _ _)
  cases h : (ofParts m e).search (ofParts m e).scale 17 1 with
  | some d =>
    have hd := exponent_search h
    have hscale := scale_ge (m := m) he
    rw [Option.getD_some]
    omega
  | none =>
    rw [Option.getD_none]
    exact le_min he (by decide)

end Binade
end Gameroom
