import Gameroom.Proofs.Grid.Nearest
import Gameroom.Proofs.Number.Exact

/-!
What is left of a float when a smaller one is taken from it. Rounding may keep the first as it is;
otherwise it loses at least two thirds of the second.
-/

open Float.Model (Format UnpackedFloat)
open Float.Model.UnpackedFloat

namespace Gameroom.Grid

/-! ### Counts -/

theorem rounded_error (n : Nat) :
    2 * rounded n ≤ 2 * n + 2 ^ (n.log2 - 52) ∧ 2 * n ≤ 2 * rounded n + 2 ^ (n.log2 - 52) := by
  unfold rounded
  generalize n.log2 - 52 = k
  cases k with
  | zero => rw [halfEven_zero]; omega
  | succ k =>
    obtain ⟨hlow, hhigh, -⟩ := halfEven_nearest n k
    have hpow : halfEven n (k + 1) * 2 ^ (k + 1) = 2 * halfEven n (k + 1) * 2 ^ k := by ring
    rw [hpow, Nat.pow_succ]
    omega

theorem pow_dvd_loss {u : Nat} (hu : rounded u = u) (s : Nat) :
    2 ^ ((u - s).log2 - 52) ∣ u - rounded (u - s) := by
  have hlog := log2_mono (Nat.sub_le u s)
  have hself : 2 ^ (u.log2 - 52) ∣ u := Dvd.intro_left _ hu
  exact Nat.dvd_sub ((Nat.pow_dvd_pow 2 (Nat.sub_le_sub_right hlog 52)).trans hself)
    (Dvd.intro_left _ rfl)

theorem rounded_sub_le {u : Nat} (hu : rounded u = u) (s : Nat) : rounded (u - s) ≤ u :=
  (rounded_mono (Nat.sub_le u s)).trans_eq hu

theorem rounded_sub {u s : Nat} (hu : rounded u = u) (hs : s ≤ u) :
    rounded (u - s) = u ∨ 2 * s ≤ 3 * (u - rounded (u - s)) := by
  have hle := rounded_sub_le hu s
  obtain ⟨hhigh, -⟩ := rounded_error (u - s)
  rcases Nat.eq_zero_or_pos (u - rounded (u - s)) with hnone | hsome
  · exact .inl (by omega)
  · have := Nat.le_of_dvd hsome (pow_dvd_loss hu s)
    exact .inr (by omega)

theorem rounded_sub_of_small {u s : Nat} (hu : rounded u = u) (hs : 2 ^ 55 * s ≤ u) :
    rounded (u - s) = u := by
  rcases Nat.eq_zero_or_pos s with rfl | hpos
  · rwa [Nat.sub_zero]
  have hlog : 54 ≤ (u - s).log2 := (Nat.le_log2 (by omega)).2 (by omega)
  obtain ⟨k, hk⟩ : ∃ k, (u - s).log2 = k + 52 := ⟨(u - s).log2 - 52, by omega⟩
  have hhigh := Nat.lt_log2_self (n := u - s)
  have hpow : 2 ^ (k + 52 + 1) = 2 ^ 53 * 2 ^ k := by rw [← Nat.pow_add]; congr 1; omega
  obtain ⟨-, herror⟩ := rounded_error (u - s)
  have hdvd := pow_dvd_loss hu s
  have hle := rounded_sub_le hu s
  rw [hk, hpow] at hhigh
  rw [hk, Nat.add_sub_cancel] at herror hdvd
  by_contra hne
  have := Nat.le_of_dvd (by omega) hdvd
  omega

/-! ### Floats -/

theorem exists_count {x : Float} (hx : x.isFinite) (h : 0 ≤ spot x) :
    ∃ n : Nat, spot x = n ∧ rounded n = n := by
  obtain ⟨hc, hfin, hunits⟩ := counts hx
  cases hu : x.toModel.unpack with
  | notANumber | infinity s =>
    rw [hu] at hfin
    cases hfin
  | zero s =>
    rw [hu] at hunits
    exact ⟨0, hunits.symm, rounded_of_lt (by decide)⟩
  | finite s m e hm =>
    rw [hu] at hc hunits
    have hround : roundedInt (spot x) = spot x := by
      rw [← hunits]
      exact roundedInt_apply hc.1 s _
    obtain ⟨n, hn⟩ := Int.eq_ofNat_of_zero_le h
    rw [hn, roundedInt_natCast] at hround
    exact ⟨n, hn, by exact_mod_cast hround⟩

theorem exists_left {x y : Float} (hx : x.isFinite) (hy : y.isFinite) (hpos : 0 ≤ spot y)
    (hle : spot y ≤ spot x) : ∃ u s : Nat, spot x = u ∧ spot y = s ∧ s ≤ u ∧ rounded u = u ∧
      (x - y).isFinite ∧ spot (x - y) = rounded (u - s) := by
  obtain ⟨u, hu, hround⟩ := exists_count hx (hpos.trans hle)
  obtain ⟨s, hs, -⟩ := exists_count hy hpos
  have hcounts := sub_eq (counts hx) (counts hy)
  have hlim := (abs_spot_lt hx).2
  rw [hu, hs] at hcounts
  rw [hu] at hlim
  have hsu : s ≤ u := by omega
  rw [← Nat.cast_sub hsu, roundedInt_natCast] at hcounts
  have hleft := rounded_sub_le hround s
  obtain ⟨hfin, hspot⟩ := spot_of_counts (unpack_ofModel_pack hcounts.canonical) hcounts (by omega)
  exact ⟨u, s, hu, hs, hsu, hround, hfin, hspot⟩

variable {x x' y : Float}

theorem le_sub_of_small (hx : x.isFinite) (hy : y.isFinite) (hpos : 0 ≤ spot y)
    (hsmall : 2 ^ 55 * spot y ≤ spot x) : x ≤ x - y := by
  obtain ⟨u, s, hu, hs, hsu, hround, hfin, hspot⟩ := exists_left hx hy hpos (by omega)
  rw [le_iff (notNaN_of_finite hx) (notNaN_of_finite hfin), hu, hspot,
    rounded_sub_of_small hround (by rw [hu, hs] at hsmall; exact_mod_cast hsmall)]

/-! ### Floats that may be infinite -/

theorem nonneg_cases (h : 0 ≤ x) :
    x.isFinite ∧ 0 ≤ spot x ∨ x.toModel.unpack = .infinity .positive := by
  have hlim := limit_pos
  obtain ⟨-, hx⟩ := notNaN_of_le h
  rw [le_iff zero_notNaN hx, spot_zero] at h
  rcases finite_or_infinite hx with hfin | hinf | hinf
  · exact .inl ⟨hfin, h⟩
  · exact .inr hinf
  · simp only [spot_infinite hinf, Sign.apply] at h
    omega

theorem notNaN_of_infinite {s : Sign} (h : x.toModel.unpack = .infinity s) : x.isNaN = false := by
  change x.toModel.unpack.isNaN = false
  rw [h]
  rfl

theorem infinite_sub {v : UnpackedFloat} (hv : v.isFinite) :
    UnpackedFloat.sub .binary64 (.infinity .positive) v = .infinity .positive := by
  cases v with
  | notANumber | infinity => cases hv
  | zero | finite => rfl

theorem infinite_add {v : UnpackedFloat} (hv : v.isFinite) :
    UnpackedFloat.add .binary64 (.infinity .positive) v = .infinity .positive := by
  cases v with
  | notANumber | infinity => cases hv
  | zero | finite => rfl

theorem add_infinite {v : UnpackedFloat} (hv : v.isFinite) :
    UnpackedFloat.add .binary64 v (.infinity .positive) = .infinity .positive := by
  cases v with
  | notANumber | infinity => cases hv
  | zero | finite => rfl

theorem sub_of_infinite (hx : x.toModel.unpack = .infinity .positive) (hy : y.isFinite) :
    (x - y).toModel.unpack = .infinity .positive := by
  refine unpack_sub (u := .infinity .positive) trivial ?_
  rw [hx]
  exact infinite_sub hy

theorem le_of_infinite (hx : x.isNaN = false) (hx' : x'.toModel.unpack = .infinity .positive) :
    x ≤ x' := by
  rw [le_iff hx (notNaN_of_infinite hx'), spot_infinite hx']
  exact (spot_range hx).2

theorem sub_notNaN_of_nonneg (hx : 0 ≤ x) (hy : y.isFinite) : (x - y).isNaN = false := by
  rcases nonneg_cases hx with ⟨hfin, -⟩ | hinf
  · exact sub_notNaN hfin hy
  · exact notNaN_of_infinite (sub_of_infinite hinf hy)

theorem sub_mono (hx : 0 ≤ x) (h : x ≤ x') (hy : y.isFinite) : x - y ≤ x' - y := by
  have hx' := le_trans hx h
  obtain ⟨hnan, hnan'⟩ := notNaN_of_le h
  rcases nonneg_cases hx' with ⟨hfin', -⟩ | hinf'
  · rcases nonneg_cases hx with ⟨hfin, -⟩ | hinf
    · rw [le_iff hnan hnan'] at h
      rw [le_iff (sub_notNaN hfin hy) (sub_notNaN hfin' hy), spot_sub hfin hy, spot_sub hfin' hy]
      exact bounded_mono (roundedInt_mono (by omega))
    · have := (abs_spot_lt hfin').2
      rw [le_iff hnan hnan', spot_infinite hinf] at h
      simp only [Sign.apply] at h
      omega
  · exact le_of_infinite (sub_notNaN_of_nonneg hx hy) (sub_of_infinite hinf' hy)

theorem le_sub_again (hx : 0 ≤ x) (hy : y.isFinite) (h : x ≤ x - y) : x - y ≤ x - y - y :=
  sub_mono hx h hy

theorem sub_nonneg_of_le (hy : y.isFinite) (hpos : 0 ≤ y) (h : y ≤ x) : 0 ≤ x - y := by
  rcases nonneg_cases (le_trans hpos h) with ⟨hfin, -⟩ | hinf
  · exact sub_nonneg hfin hy h
  · exact le_of_infinite zero_notNaN (sub_of_infinite hinf hy)

theorem taken (hy : y.isFinite) (hpos : 0 ≤ y) (h : y ≤ x) :
    x ≤ x - y ∨ 2 * spot y ≤ 3 * (spot x - spot (x - y)) := by
  obtain ⟨hynan, hxnan⟩ := notNaN_of_le h
  rcases nonneg_cases (le_trans hpos h) with ⟨hfin, -⟩ | hinf
  · rw [le_iff zero_notNaN hynan, spot_zero] at hpos
    rw [le_iff hynan hxnan] at h
    obtain ⟨u, s, hu, hs, hsu, hround, hfin', hspot⟩ := exists_left hfin hy hpos h
    rw [le_iff hxnan (notNaN_of_finite hfin'), hu, hs, hspot]
    have hless := rounded_sub_le hround s
    rcases rounded_sub hround hsu with hsame | hlost
    · exact .inl (by omega)
    · exact .inr (by omega)
  · exact .inl (le_of_infinite hxnan (sub_of_infinite hinf hy))

theorem add_nonneg (hx : 0 ≤ x) (hy : 0 ≤ y) : 0 ≤ x + y := by
  have hinfinite (h : UnpackedFloat.add .binary64 x.toModel.unpack y.toModel.unpack =
      .infinity .positive) : 0 ≤ x + y := by
    refine le_of_infinite zero_notNaN ?_
    change unpack .binary64 (pack .binary64 (UnpackedFloat.add .binary64 _ _)) = _
    rw [h]
    exact unpack_pack trivial
  rcases nonneg_cases hx with ⟨hfx, hsx⟩ | hix <;> rcases nonneg_cases hy with ⟨hfy, hsy⟩ | hiy
  · have hcounts := add_eq (counts hfx) (counts hfy)
    have hsum : (x + y).toModel.unpack = fitted _ := unpack_ofModel_pack hcounts.canonical
    have hplace : spot (x + y) = bounded (roundedInt (spot x + spot y)) :=
      (congrArg place hsum).trans (place_fitted hcounts)
    have hround : roundedInt 0 ≤ roundedInt (spot x + spot y) := roundedInt_mono (by omega)
    have hlim := limit_pos
    rw [roundedInt_eq_zero.2 rfl] at hround
    rw [le_iff zero_notNaN (notNaN_of_counts hsum hcounts), spot_zero, hplace, bounded]
    omega
  · exact hinfinite (hiy ▸ add_infinite hfx)
  · exact hinfinite (hix ▸ infinite_add hfy)
  · refine hinfinite ?_
    rw [hix, hiy]
    rfl

theorem not_nonneg_of_debt (hy : y.isFinite) (hpos : 0 < spot y) : ¬ 0 ≤ 0 - y := by
  have hzero : (0 : Float).isFinite := rfl
  have hlim := limit_pos
  have hround := roundedInt_pos hpos
  rw [le_iff zero_notNaN (sub_notNaN hzero hy), spot_zero, spot_sub hzero hy, spot_zero, zero_sub,
    roundedInt_neg, bounded]
  omega

end Gameroom.Grid
