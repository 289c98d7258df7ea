import Gameroom.Proofs.Number.Order

/-! The floats nearest to whole numbers. -/

open Float.Model (Format UnpackedFloat)
open Float.Model.UnpackedFloat

namespace Gameroom

namespace Grid

theorem ofInt_counts (n : Int) :
    Counts (UnpackedFloat.ofInt .binary64 n) (roundedInt (n * unity)) := by
  have h := normalize_eq n (e := 0) (by decide) .positive
  have hdepth : ((0 : Int) + 1074).toNat = depth := rfl
  have hunity : (2 : Int) ^ depth = unity := by
    rw [unity, Nat.cast_pow, Nat.cast_ofNat]
  rwa [hdepth, hunity] at h

theorem unpack_floatOfInt (n : Int) :
    (floatOfInt n).toModel.unpack = fitted (UnpackedFloat.ofInt .binary64 n) :=
  unpack_ofModel_pack (ofInt_counts n).canonical

theorem spot_floatOfInt (n : Int) : spot (floatOfInt n) = bounded (roundedInt (n * unity)) := by
  rw [spot, unpack_floatOfInt]
  exact place_fitted (ofInt_counts n)

theorem notNaN_of_counts {x : Float} {u : UnpackedFloat} {z : Int}
    (hx : x.toModel.unpack = fitted u) (hu : Counts u z) : x.isNaN = false := by
  have hfin := hu.finite
  change x.toModel.unpack.isNaN = false
  rw [hx]
  cases u with
  | notANumber | infinity s => cases hfin
  | zero s => rfl
  | finite s m e hm =>
    rw [fitted]
    split_ifs <;> rfl

theorem floatOfInt_notNaN (n : Int) : (floatOfInt n).isNaN = false :=
  notNaN_of_counts (unpack_floatOfInt n) (ofInt_counts n)

theorem bounded_eq_zero {z : Int} : bounded z = 0 ↔ z = 0 := by
  have := limit_pos
  unfold bounded
  omega

theorem roundedInt_eq_zero {z : Int} : roundedInt z = 0 ↔ z = 0 := by
  constructor
  · intro h
    rcases lt_trichotomy z 0 with hneg | hzero | hpos
    · have := roundedInt_pos (neg_pos.2 hneg)
      rw [roundedInt_neg] at this
      omega
    · exact hzero
    · have := roundedInt_pos hpos
      omega
  · rintro rfl
    simp [roundedInt, rounded_of_lt]

theorem spot_floatOfInt_eq_zero {n : Int} : spot (floatOfInt n) = 0 ↔ n = 0 := by
  have hpos := unity_pos
  rw [spot_floatOfInt, bounded_eq_zero, roundedInt_eq_zero, mul_eq_zero]
  omega

theorem eq_of_counts {u v : UnpackedFloat} {z : Int} (hu : Counts u z) (hv : Counts v z)
    (hz : z ≠ 0) : u = v := by
  obtain ⟨hcu, hfu, hzu⟩ := hu
  obtain ⟨hcv, hfv, hzv⟩ := hv
  cases u with
  | notANumber | infinity s => cases hfu
  | zero s => exact absurd hzu.symm hz
  | finite s m e hm =>
    cases v with
    | notANumber | infinity s' => cases hfv
    | zero s' => exact absurd hzv.symm hz
    | finite s' m' e' hm' =>
      have hpos := Nat.mul_pos hm (Nat.two_pow_pos (e + 1074).toNat)
      have hpos' := Nat.mul_pos hm' (Nat.two_pow_pos (e' + 1074).toNat)
      have hsigns : s = s' ∧ m * 2 ^ (e + 1074).toNat = m' * 2 ^ (e' + 1074).toNat := by
        rw [← hzv] at hzu
        cases s <;> cases s' <;> simp only [units, Sign.apply] at hzu <;>
          first | exact ⟨rfl, by omega⟩ | omega
      obtain ⟨rfl, hunits⟩ := hsigns
      have hcompare := compare_mantissas hcu hcv
      rw [hunits, Nat.compare_eq_eq.2 rfl, Ordering.then_eq_eq] at hcompare
      obtain ⟨he, hm⟩ := hcompare
      obtain rfl := Int.compare_eq_eq.1 he
      obtain rfl := Nat.compare_eq_eq.1 hm
      rfl

theorem counts_neg {u : UnpackedFloat} {z : Int} (h : Counts u z) : Counts u.neg (-z) := by
  obtain ⟨hc, hf, rfl⟩ := h
  cases u with
  | notANumber | infinity s => cases hf
  | zero s => exact ⟨trivial, rfl, rfl⟩
  | finite s m e hm => exact ⟨hc, rfl, apply_neg s _⟩

theorem ofInt_neg {n : Int} (h : n ≠ 0) :
    UnpackedFloat.ofInt .binary64 (-n) = (UnpackedFloat.ofInt .binary64 n).neg := by
  have hpos := unity_pos
  have hcounts := counts_neg (ofInt_counts n)
  rw [← roundedInt_neg, ← neg_mul] at hcounts
  refine eq_of_counts (ofInt_counts (-n)) hcounts ?_
  rw [Ne, roundedInt_eq_zero, mul_eq_zero]
  omega

theorem ofScientific_eq (n : Nat) :
    UnpackedFloat.ofScientific .binary64 n 0 = UnpackedFloat.ofInt .binary64 n := by
  rcases Nat.eq_zero_or_pos n with rfl | hn
  · rfl
  have hbits : Format.binary64.mantissaBits = 53 := rfl
  have hm : 0 < n * 2 ^ 53 := Nat.mul_pos hn (Nat.two_pow_pos 53)
  -- The scientific form carries 53 more bits, which the exponent takes back.
  have hproduct : UnpackedFloat.ofScientific .binary64 n 0 =
      roundWithAccuracy .binary64 .positive (n * 2 ^ 53) (-53) .exact := by
    unfold UnpackedFloat.ofScientific
    rw [dif_neg (by omega), if_neg (not_lt.2 (by positivity)),
      if_neg (not_lt.2 (neg_nonpos.2 (by positivity))), if_pos le_rfl]
    simp only [UnpackedFloat.mul, hbits, Nat.shiftLeft_eq, Int.toNat_zero, pow_zero, Nat.mul_one]
    rfl
  have hcounts := roundWithAccuracy_eq .positive hm (by decide : (-1074 : Int) ≤ -53) (by
    have := log2_mul_pow hn 53
    omega)
  have hunits : n * 2 ^ 53 * 2 ^ (-53 + 1074 : Int).toNat = n * unity := by
    have hdepth : 53 + (-53 + 1074 : Int).toNat = depth := rfl
    rw [mul_assoc, ← pow_add, hdepth, unity]
  have hints := ofInt_counts n
  rw [← Nat.cast_mul, roundedInt_natCast] at hints
  rw [hunits] at hcounts
  rw [hproduct]
  refine eq_of_counts hcounts hints fun hzero => ?_
  have hpos := Nat.mul_pos hn unity_pos
  have := roundedInt_eq_zero.1 ((roundedInt_natCast (n * unity)).trans hzero)
  omega

theorem whole_lt_limit {n : Int} (h : n.natAbs < 2 ^ 53) : n.natAbs * unity < limit :=
  calc n.natAbs * unity < 2 ^ 53 * unity := Nat.mul_lt_mul_of_pos_right h unity_pos
    _ ≤ limit := Nat.mul_le_mul_left _ (Nat.pow_le_pow_right Nat.two_pos (by decide))

theorem roundedInt_whole {n : Int} (h : n.natAbs < 2 ^ 53) :
    roundedInt (n * unity) = n * unity := by
  have hround : rounded (n.natAbs * unity) = n.natAbs * unity := rounded_mul_pow h depth
  rcases Int.natAbs_eq n with hn | hn <;> rw [hn]
  · rw [← Nat.cast_mul, roundedInt_natCast, hround]
  · rw [neg_mul, ← Nat.cast_mul, roundedInt_neg, roundedInt_natCast, hround]

theorem fitted_ofInt {n : Int} (h : n.natAbs < 2 ^ 53) :
    fitted (UnpackedFloat.ofInt .binary64 n) = UnpackedFloat.ofInt .binary64 n := by
  obtain ⟨hc, hf, hz⟩ := ofInt_counts n
  have hsmall := whole_lt_limit h
  have hunits : units (UnpackedFloat.ofInt .binary64 n) = n * unity := by
    rw [hz, roundedInt_whole h]
  cases hu : UnpackedFloat.ofInt .binary64 n with
  | notANumber | infinity s | zero s => rfl
  | finite s m e hm =>
    rw [hu] at hc hunits
    rw [fitted, if_pos]
    by_contra hbig
    have hle := limit_le (hc.2.2.resolve_right (by omega)) (by omega : 972 ≤ e)
    have habs := congrArg Int.natAbs hunits
    rw [Int.natAbs_mul, Int.natAbs_natCast] at habs
    cases s <;> simp only [units, Sign.apply, Int.natAbs_neg, Int.natAbs_natCast] at habs <;> omega

theorem spot_whole {n : Int} (h : n.natAbs < 2 ^ 53) : spot (floatOfInt n) = n * unity := by
  have hsmall := whole_lt_limit h
  have hcast : (n * unity).natAbs = n.natAbs * unity := by rw [Int.natAbs_mul, Int.natAbs_natCast]
  rw [spot_floatOfInt, roundedInt_whole h, bounded]
  omega

theorem floatOfInt_neg {n : Int} (hne : n ≠ 0) (h : n.natAbs < 2 ^ 53) :
    floatOfInt (-n) = -floatOfInt n := by
  have hunpack : (floatOfInt n).toModel.unpack = UnpackedFloat.ofInt .binary64 n :=
    (unpack_floatOfInt n).trans (fitted_ofInt h)
  change Float.ofModel (.pack (UnpackedFloat.ofInt .binary64 (-n))) =
    Float.ofModel (.pack (floatOfInt n).toModel.unpack.neg)
  rw [hunpack, ofInt_neg hne]

theorem floatOfDecimal_eq (n : Nat) : floatOfDecimal n 0 = floatOfInt n :=
  congrArg (fun u => Float.ofModel (.pack u)) (ofScientific_eq n)

end Grid

namespace Number
open Grid

theorem eq_of_toFloat {n : Int} {x : Float} (h : (Number.int n).toFloat = .ok x) :
    floatOfInt n = x := by
  dsimp only [toFloat] at h
  split_ifs at h
  exact Except.ok.inj h

theorem toFloat_notNaN {w : Number} {x : Float} (h : w.toFloat = .ok x) (hw : w.isNaN = false) :
    x.isNaN = false := by
  cases w with
  | int n =>
    obtain rfl := eq_of_toFloat h
    exact floatOfInt_notNaN n
  | float y =>
    cases h
    exact hw

theorem isZero_iff {x : Float} (h : x.isNaN = false) : (Number.float x).isZero ↔ spot x = 0 := by
  have hrange := spot_range h
  have hlim := limit_pos
  have hzero : onLine 0 = ((0 : Int) : WithTop Int) := onLine_of_lt ⟨by omega, by omega⟩
  rw [isZero, equal_iff_rank (show (Number.float x).isNaN = false from h) rfl, rank, rank, zero_mul,
    ← hzero]
  constructor
  · intro hsame
    by_contra hne
    rcases lt_or_gt_of_ne hne with hlt | hlt
    · exact (onLine_lt hlt (by omega) (by omega)).ne hsame
    · exact (onLine_lt hlt (by omega) (by omega)).ne' hsame
  · intro hspot
    rw [hspot]

theorem toFloat_beq_zero {w : Number} {x : Float} (h : w.toFloat = .ok x) (hw : w.isNaN = false) :
    x == 0 ↔ w.isZero := by
  rw [beq_iff (toFloat_notNaN h hw) zero_notNaN, spot_zero]
  cases w with
  | int n =>
    obtain rfl := eq_of_toFloat h
    rw [spot_floatOfInt_eq_zero, isZero, equal_iff_rank rfl rfl, rank, rank]
    have hpos := unity_pos
    constructor
    · rintro rfl
      rfl
    · intro hsame
      have hmul : n * (unity : Int) = 0 * unity := by exact_mod_cast hsame
      exact mul_right_cancel₀ (by omega) hmul
  | float y =>
    cases h
    exact (isZero_iff hw).symm

theorem rank_whole {n : Int} (h : n.natAbs < 2 ^ 53) :
    (Number.float (floatOfInt n)).rank = (Number.int n).rank := by
  have hsmall := whole_lt_limit h
  have hcast : (n * unity).natAbs = n.natAbs * unity := by rw [Int.natAbs_mul, Int.natAbs_natCast]
  rw [rank, rank, spot_whole h, onLine_of_lt (by omega)]

theorem order?_whole {n : Int} (h : n.natAbs < 2 ^ 53) (b : Number) :
    (Number.float (floatOfInt n)).order? b = (Number.int n).order? b := by
  have hn : (Number.float (floatOfInt n)).isNaN = false := floatOfInt_notNaN n
  cases hb : b.isNaN with
  | true => rw [order?_eq_none (.inr hb), order?_eq_none (.inr hb)]
  | false => rw [order?_eq hn hb, order?_eq rfl hb, rank_whole h]

theorem order?_whole_right {n : Int} (h : n.natAbs < 2 ^ 53) (a : Number) :
    a.order? (.float (floatOfInt n)) = a.order? (.int n) := by
  have hn : (Number.float (floatOfInt n)).isNaN = false := floatOfInt_notNaN n
  cases ha : a.isNaN with
  | true => rw [order?_eq_none (.inl ha), order?_eq_none (.inl ha)]
  | false => rw [order?_eq ha hn, order?_eq ha rfl, rank_whole h]

theorem order?_int_whole (m : Int) {n : Int} (h : n.natAbs < 2 ^ 53) :
    (Number.int m).order? (.float (floatOfInt n)) = some (compare m n) := by
  have hn : (Number.float (floatOfInt n)).isNaN = false := floatOfInt_notNaN n
  rw [order?_eq rfl hn, rank_whole h, rank, rank, compare_coe, compare_mul unity_pos]

section
variable {x y : Float}

theorem order?_float (hx : x.isNaN = false) (hy : y.isNaN = false) :
    (Number.float x).order? (.float y) = some (compare (spot x) (spot y)) := by
  have horder := order?_eq (a := .float x) (b := .float y) hx hy
  rwa [rank, rank, compare_onLine hx hy] at horder

theorem lt_float (hx : x.isNaN = false) (hy : y.isNaN = false) :
    (Number.float x).lt (.float y) = decide (x < y) := by
  rw [Bool.eq_iff_iff, lt, order?_float hx hy, beq_iff_eq, Option.some_inj, Int.compare_eq_lt,
    decide_eq_true_iff, lt_iff hx hy]

theorem le_float (hx : x.isNaN = false) (hy : y.isNaN = false) :
    (Number.float x).le (.float y) = decide (x ≤ y) := by
  rw [Bool.eq_iff_iff, le, order?_float hx hy, Bool.or_eq_true, beq_iff_eq, beq_iff_eq,
    Option.some_inj, Option.some_inj, Int.compare_eq_lt, Int.compare_eq_eq, decide_eq_true_iff,
    le_iff hx hy, Int.le_iff_lt_or_eq]

theorem equal_float (hx : x.isNaN = false) (hy : y.isNaN = false) :
    (Number.float x).equal (.float y) = (x == y) := by
  rw [Bool.eq_iff_iff, equal, order?_float hx hy, beq_iff_eq, Option.some_inj, Int.compare_eq_eq,
    beq_iff hx hy]

end

theorem le_of_equal {w : Number} {x y : Float} (hw : w.equal (.float x)) (h : x ≤ y) :
    w.le (.float y) := by
  have hle : w.le (.float x) := by
    rw [le, Bool.or_eq_true]
    exact Or.inr hw
  exact le_trans hle (float_le h)

end Number
end Gameroom
