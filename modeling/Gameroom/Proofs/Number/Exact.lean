import Gameroom.Proofs.Number.Whole

/-!
Floats that stand for whole numbers. Up to `2 ^ 53` their sums and differences are exact, and they
are ordered as the numbers.
-/

open Float.Model (Format UnpackedFloat)
open Float.Model.UnpackedFloat

namespace Gameroom

namespace Grid

theorem neg_neg_sign (s : Sign) : - -s = s := by cases s <;> rfl

theorem add_eq_sub (u v : UnpackedFloat) :
    UnpackedFloat.add .binary64 u v = UnpackedFloat.sub .binary64 u v.neg := by
  cases u with
  | infinity s =>
    cases v with
    | infinity s' => cases s <;> cases s' <;> rfl
    | _ => rfl
  | zero s =>
    cases v with
    | zero s' => cases s <;> cases s' <;> rfl
    | _ => simp [UnpackedFloat.add, UnpackedFloat.sub, UnpackedFloat.neg, neg_neg_sign]
  | _ =>
    cases v <;>
      simp [UnpackedFloat.add, UnpackedFloat.sub, UnpackedFloat.neg, neg_neg_sign, apply_neg]

theorem add_eq {u v : UnpackedFloat} {z z' : Int} (hu : Counts u z) (hv : Counts v z') :
    Counts (UnpackedFloat.add .binary64 u v) (roundedInt (z + z')) := by
  rw [add_eq_sub, ← sub_neg_eq_add]
  exact sub_eq hu (counts_neg hv)

theorem isFinite_fitted {u : UnpackedFloat} {z : Int} (hz : Counts u z) (hlim : z.natAbs < limit) :
    (fitted u).isFinite := by
  obtain ⟨hc, hfin, rfl⟩ := hz
  cases u with
  | notANumber | infinity s => cases hfin
  | zero s => rfl
  | finite s m e hm =>
    rw [fitted, if_pos]
    · rfl
    · by_contra hbig
      have hle := limit_le (hc.2.2.resolve_right (by omega)) (by omega : 972 ≤ e)
      cases s <;> simp only [units, Sign.apply, Int.natAbs_neg, Int.natAbs_natCast] at hlim <;>
        omega

theorem bounded_of_lt {z : Int} (h : z.natAbs < limit) : bounded z = z := by
  unfold bounded
  omega

theorem spot_of_counts {x : Float} {u : UnpackedFloat} {z : Int} (hx : x.toModel.unpack = fitted u)
    (hz : Counts u z) (hlim : z.natAbs < limit) : x.isFinite ∧ spot x = z := by
  constructor
  · change x.toModel.unpack.isFinite = true
    rw [hx]
    exact isFinite_fitted hz hlim
  · rw [spot, hx, place_fitted hz, bounded_of_lt hlim]

/-! ### Signs -/

theorem fits_signed {s s' : Sign} {m : Nat} {e : Int} {hm : 0 < m} (h : Fits (.finite s m e hm)) :
    Fits (.finite s' m e hm) := by
  obtain ⟨hc, hfit⟩ := h
  have he : e ≤ 971 := by
    by_contra hbig
    rw [fitted, if_neg hbig] at hfit
    cases hfit
  exact ⟨hc, if_pos he⟩

theorem unpack_neg (x : Float) : (-x).toModel.unpack = x.toModel.unpack.neg := by
  have hpack : (-x).toModel.unpack = unpack .binary64 (pack .binary64 x.toModel.unpack.neg) := rfl
  have hfits := fits x
  rw [hpack]
  cases hu : x.toModel.unpack with
  | finite s m e hm =>
    rw [hu] at hfits
    have hneg : Fits (.finite (-s) m e hm) := fits_signed hfits
    exact (unpack_pack hneg.1).trans hneg.2
  | _ => exact unpack_pack trivial

theorem unpack_abs (x : Float) : x.abs.toModel.unpack = x.toModel.unpack.abs := by
  have hpack : x.abs.toModel.unpack = unpack .binary64 (pack .binary64 x.toModel.unpack.abs) := rfl
  have hfits := fits x
  rw [hpack]
  cases hu : x.toModel.unpack with
  | finite s m e hm =>
    rw [hu] at hfits
    have habs : Fits (.finite .positive m e hm) := fits_signed hfits
    exact (unpack_pack habs.1).trans habs.2
  | _ => exact unpack_pack trivial

theorem spot_neg (x : Float) : spot (-x) = -spot x := by
  rw [spot, spot, unpack_neg]
  cases x.toModel.unpack with
  | notANumber | zero s => rfl
  | infinity s | finite s m e hm => exact apply_neg s _

theorem isNaN_neg (x : Float) : (-x).isNaN = x.isNaN := by
  change (-x).toModel.unpack.isNaN = x.toModel.unpack.isNaN
  rw [unpack_neg]
  cases x.toModel.unpack <;> rfl

theorem spot_abs (x : Float) : spot x.abs = |spot x| := by
  have habs (s : Sign) (m : Nat) : ((m : Nat) : Int) = |s.apply m| := by
    cases s
    · exact ((abs_neg _).trans (Nat.abs_cast m)).symm
    · exact (Nat.abs_cast m).symm
  rw [spot, spot, unpack_abs]
  cases x.toModel.unpack with
  | notANumber | zero s => rfl
  | infinity s | finite s m e hm => exact habs s _

theorem isNaN_abs (x : Float) : x.abs.isNaN = x.isNaN := by
  change x.abs.toModel.unpack.isNaN = x.toModel.unpack.isNaN
  rw [unpack_abs]
  cases x.toModel.unpack <;> rfl

/-! ### Whole numbers up to `2 ^ 53` -/

theorem whole_le_limit {n : Int} (h : n.natAbs ≤ 2 ^ 53) : (n * unity).natAbs < limit := by
  rw [Int.natAbs_mul, Int.natAbs_natCast]
  calc n.natAbs * unity ≤ 2 ^ 53 * unity := Nat.mul_le_mul_right _ h
    _ < limit :=
      Nat.mul_lt_mul_of_pos_left (Nat.pow_lt_pow_right (by decide) (by decide)) (by decide)

theorem rounded_whole {n : Nat} (h : n ≤ 2 ^ 53) : rounded (n * unity) = n * unity := by
  rcases h.lt_or_eq with hlt | rfl
  · exact rounded_mul_pow hlt depth
  · rw [unity, ← pow_add, ← one_mul (2 ^ (53 + depth))]
    exact rounded_mul_pow (by decide) _

theorem roundedInt_exact {n : Int} (h : n.natAbs ≤ 2 ^ 53) :
    roundedInt (n * unity) = n * unity := by
  have hround := rounded_whole h
  rcases Int.natAbs_eq n with hn | hn <;> rw [hn]
  · rw [← Nat.cast_mul, roundedInt_natCast, hround]
  · rw [neg_mul, ← Nat.cast_mul, roundedInt_neg, roundedInt_natCast, hround]

end Grid

/-- A float stands for a whole number. -/
structure IsWhole (x : Float) (n : Int) : Prop where
  finite : x.isFinite
  spot : Grid.spot x = n * Grid.unity

namespace IsWhole
open Grid
variable {x y : Float} {m n : Int}

theorem notNaN (h : IsWhole x m) : x.isNaN = false := notNaN_of_finite h.finite

theorem of_counts {u : UnpackedFloat} (hu : Counts u (roundedInt (n * unity)))
    (hn : n.natAbs ≤ 2 ^ 53) (hx : x.toModel.unpack = fitted u) : IsWhole x n := by
  rw [roundedInt_exact hn] at hu
  obtain ⟨hfin, hspot⟩ := spot_of_counts hx hu (whole_le_limit hn)
  exact ⟨hfin, hspot⟩

theorem ofInt (hn : n.natAbs ≤ 2 ^ 53) : IsWhole (floatOfInt n) n :=
  of_counts (ofInt_counts n) hn (unpack_floatOfInt n)

theorem zero : IsWhole 0 0 := ⟨rfl, by rw [spot_zero, zero_mul]⟩

theorem add (hx : IsWhole x m) (hy : IsWhole y n) (h : (m + n).natAbs ≤ 2 ^ 53) :
    IsWhole (x + y) (m + n) := by
  have hcounts := add_eq (counts hx.finite) (counts hy.finite)
  rw [hx.spot, hy.spot, ← add_mul] at hcounts
  exact of_counts hcounts h (unpack_ofModel_pack hcounts.canonical)

theorem sub (hx : IsWhole x m) (hy : IsWhole y n) (h : (m - n).natAbs ≤ 2 ^ 53) :
    IsWhole (x - y) (m - n) := by
  have hcounts := sub_eq (counts hx.finite) (counts hy.finite)
  rw [hx.spot, hy.spot, ← sub_mul] at hcounts
  exact of_counts hcounts h (unpack_ofModel_pack hcounts.canonical)

theorem le_iff (hx : IsWhole x m) (hy : IsWhole y n) : x ≤ y ↔ m ≤ n := by
  rw [Grid.le_iff hx.notNaN hy.notNaN, hx.spot, hy.spot]
  exact mul_le_mul_iff_left₀ (by exact_mod_cast unity_pos)

theorem rank (hx : IsWhole x m) (hm : m.natAbs ≤ 2 ^ 53) :
    (Number.float x).rank = (Number.int m).rank := by
  have hlim := whole_le_limit hm
  rw [Number.rank, Number.rank, hx.spot, onLine_of_lt (by omega)]

end IsWhole
end Gameroom
