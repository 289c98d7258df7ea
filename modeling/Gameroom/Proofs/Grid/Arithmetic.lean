import Gameroom.Proofs.Grid.Place

/-! Comparisons and differences of floats by their places on the line. -/

open Float.Model (Format UnpackedFloat)
open Float.Model.UnpackedFloat

namespace Gameroom.Grid

/-- The place of a float on the line. -/
def spot (x : Float) : Int := place x.toModel.unpack

theorem fits (x : Float) : Fits x.toModel.unpack := fits_unpack _

theorem unpack_ne {x : Float} (h : x.isNaN = false) : x.toModel.unpack ≠ .notANumber := by
  intro hx
  have : x.toModel.unpack.isNaN = false := h
  simp [hx, UnpackedFloat.isNaN] at this

theorem notNaN_of_finite {x : Float} (h : x.isFinite) : x.isNaN = false := by
  have hfin : x.toModel.unpack.isFinite = true := h
  change x.toModel.unpack.isNaN = false
  cases hx : x.toModel.unpack <;> simp_all [UnpackedFloat.isNaN, UnpackedFloat.isFinite]

theorem compare_spots {x y : Float} (hx : x.isNaN = false) (hy : y.isNaN = false) :
    x.toModel.unpack.compare y.toModel.unpack = some (compare (spot x) (spot y)) :=
  compare_eq (fits x) (fits y) (unpack_ne hx) (unpack_ne hy)

theorem lt_iff {x y : Float} (hx : x.isNaN = false) (hy : y.isNaN = false) :
    x < y ↔ spot x < spot y := by
  change decide ((x.toModel.unpack.compare y.toModel.unpack == some .lt) = true) = true ↔ _
  rw [decide_eq_true_iff, compare_spots hx hy, beq_iff_eq, Option.some.injEq, Int.compare_eq_lt]

theorem le_iff {x y : Float} (hx : x.isNaN = false) (hy : y.isNaN = false) :
    x ≤ y ↔ spot x ≤ spot y := by
  change decide ((x.toModel.unpack.compare y.toModel.unpack).any (·.isLE) = true) = true ↔ _
  rw [decide_eq_true_iff, compare_spots hx hy, Option.any_some, Int.isLE_compare]

theorem beq_iff {x y : Float} (hx : x.isNaN = false) (hy : y.isNaN = false) :
    x == y ↔ spot x = spot y := by
  change (x.toModel.unpack.compare y.toModel.unpack == some .eq) = true ↔ _
  rw [compare_spots hx hy, beq_iff_eq, Option.some.injEq, Int.compare_eq_eq]

theorem le_of_not_lt {x y : Float} (hx : x.isNaN = false) (hy : y.isNaN = false) (h : ¬ x < y) :
    y ≤ x := by
  rw [lt_iff hx hy, not_lt] at h
  exact (le_iff hy hx).2 h

theorem compare_nan {x y : Float} (h : x.isNaN ∨ y.isNaN) :
    x.toModel.unpack.compare y.toModel.unpack = none := by
  change x.toModel.unpack.isNaN = true ∨ y.toModel.unpack.isNaN = true at h
  cases hx : x.toModel.unpack <;> cases hy : y.toModel.unpack <;>
    first | rfl | simp [hx, hy, UnpackedFloat.isNaN] at h

theorem not_lt_of_nan {x y : Float} (h : x.isNaN ∨ y.isNaN) : ¬ x < y := by
  change ¬ decide ((x.toModel.unpack.compare y.toModel.unpack == some .lt) = true) = true
  rw [compare_nan h]
  decide

theorem not_le_of_nan {x y : Float} (h : x.isNaN ∨ y.isNaN) : ¬ x ≤ y := by
  change ¬ decide ((x.toModel.unpack.compare y.toModel.unpack).any (·.isLE) = true) = true
  rw [compare_nan h]
  decide

theorem notNaN_of_le {x y : Float} (h : x ≤ y) : x.isNaN = false ∧ y.isNaN = false := by
  constructor <;> by_contra hnan
  · exact not_le_of_nan (.inl (by simpa using hnan)) h
  · exact not_le_of_nan (.inr (by simpa using hnan)) h

theorem le_trans {x y z : Float} (h : x ≤ y) (h' : y ≤ z) : x ≤ z := by
  obtain ⟨hx, hy⟩ := notNaN_of_le h
  obtain ⟨-, hz⟩ := notNaN_of_le h'
  rw [le_iff hx hy] at h
  rw [le_iff hy hz] at h'
  exact (le_iff hx hz).2 (h.trans h')

theorem le_refl {x : Float} (h : x.isNaN = false) : x ≤ x := (le_iff h h).2 le_rfl

theorem not_beq_of_nan {x y : Float} (h : x.isNaN ∨ y.isNaN) : ¬ x == y := by
  change ¬ (x.toModel.unpack.compare y.toModel.unpack == some .eq) = true
  rw [compare_nan h]
  decide

theorem counts {x : Float} (h : x.isFinite) : Counts x.toModel.unpack (spot x) := by
  have hfin : x.toModel.unpack.isFinite = true := h
  refine ⟨(fits x).1, hfin, ?_⟩
  unfold spot
  cases hx : x.toModel.unpack <;> first | rfl | simp [hx, UnpackedFloat.isFinite] at hfin

theorem unpack_ofModel_pack {u : UnpackedFloat} (h : Canonical u) :
    (Float.ofModel (.pack u)).toModel.unpack = fitted u := unpack_pack h

/-! ### Differences -/

theorem apply_neg (s : Sign) (m : Nat) : (-s).apply m = -s.apply m := by
  cases s
  · exact (neg_neg _).symm
  · rfl

theorem roundedInt_natCast (n : Nat) : roundedInt n = rounded n := by
  rw [roundedInt, if_pos (by omega), Int.toNat_natCast]

theorem roundedInt_neg (z : Int) : roundedInt (-z) = -roundedInt z := by
  have hzero : rounded 0 = 0 := rounded_of_lt (by decide)
  unfold roundedInt
  rcases lt_trichotomy z 0 with h | rfl | h
  · rw [if_pos (by omega), if_neg (by omega), neg_neg]
  · simp [hzero]
  · rw [if_neg (by omega), if_pos (by omega), neg_neg]

theorem roundedInt_apply {m : Nat} (h : m < 2 ^ 53) (s : Sign) (k : Nat) :
    roundedInt (s.apply (m * 2 ^ k : Nat)) = s.apply (m * 2 ^ k : Nat) := by
  have hround := roundedInt_natCast (m * 2 ^ k)
  rw [rounded_mul_pow h k] at hround
  cases s
  · change roundedInt (-((m * 2 ^ k : Nat) : Int)) = -((m * 2 ^ k : Nat) : Int)
    rw [roundedInt_neg, hround]
  · exact hround

theorem units_shifted (s : Sign) {m : Nat} {e t : Int} (hm : 0 < m) (ht : t ≤ e)
    (hlow : -1074 ≤ t) :
    s.apply (m * 2 ^ (e - t).toNat : Nat) * 2 ^ (t + 1074).toNat = units (.finite s m e hm) := by
  have hpow : (2 : Int) ^ (e - t).toNat * 2 ^ (t + 1074).toNat = 2 ^ (e + 1074).toNat := by
    rw [← pow_add]
    congr 1
    omega
  cases s <;> simp only [units, Sign.apply] <;> push_cast <;> rw [← hpow] <;> ring

theorem sub_eq {u v : UnpackedFloat} {z z' : Int} (hu : Counts u z) (hv : Counts v z') :
    Counts (UnpackedFloat.sub .binary64 u v) (roundedInt (z - z')) := by
  obtain ⟨hcu, hfu, rfl⟩ := hu
  obtain ⟨hcv, hfv, rfl⟩ := hv
  -- A zero on either side leaves the other value, which has 53 bits and stays as it is.
  cases u with
  | notANumber | infinity s => simp [UnpackedFloat.isFinite] at hfu
  | zero s =>
    cases v with
    | notANumber | infinity s' => simp [UnpackedFloat.isFinite] at hfv
    | zero s' =>
      simp only [UnpackedFloat.sub]
      split_ifs <;> exact ⟨trivial, rfl, by simp [units, roundedInt, rounded_of_lt]⟩
    | finite s' m' e' hm' =>
      refine ⟨hcv, rfl, ?_⟩
      have hneg : units (.zero s) - units (.finite s' m' e' hm') =
          (-s').apply (m' * 2 ^ (e' + 1074).toNat : Nat) := by
        rw [apply_neg]
        simp only [units, zero_sub]
      rw [hneg, roundedInt_apply hcv.1]
      rfl
  | finite s m e hm =>
    cases v with
    | notANumber | infinity s' => simp [UnpackedFloat.isFinite] at hfv
    | zero s' =>
      refine ⟨hcu, rfl, ?_⟩
      have hsame : units (.finite s m e hm) - units (.zero s') =
          s.apply (m * 2 ^ (e + 1074).toNat : Nat) := by
        simp only [units, sub_zero]
      rw [hsame, roundedInt_apply hcu.1]
      rfl
    | finite s' m' e' hm' =>
      have he := hcu.2.1
      have he' := hcv.2.1
      have h := normalize_eq (s.apply (m * 2 ^ (e - min e e').toNat : Nat) -
        s'.apply (m' * 2 ^ (e' - min e e').toNat : Nat)) (e := min e e') (by omega) .positive
      simp only [UnpackedFloat.sub, decreaseExponent_eq]
      rwa [sub_mul, units_shifted s hm (by omega) (by omega),
        units_shifted s' hm' (by omega) (by omega)] at h

theorem roundedInt_mono {z z' : Int} (h : z ≤ z') : roundedInt z ≤ roundedInt z' := by
  unfold roundedInt
  split_ifs with h1 h2 h2
  · exact_mod_cast rounded_mono (by omega)
  · omega
  · omega
  · have := rounded_mono (show (-z').toNat ≤ (-z).toNat by omega)
    omega

theorem roundedInt_pos {z : Int} (h : 0 < z) : 0 < roundedInt z := by
  have h1 : roundedInt 1 = 1 := by
    rw [roundedInt, if_pos (by decide)]
    exact_mod_cast rounded_of_lt (by decide : 1 < 2 ^ 53)
  have := roundedInt_mono (show 1 ≤ z by omega)
  omega

theorem spot_sub {x y : Float} (hx : x.isFinite) (hy : y.isFinite) :
    spot (x - y) = bounded (roundedInt (spot x - spot y)) := by
  have h := sub_eq (counts hx) (counts hy)
  rw [← place_fitted h, ← unpack_pack h.canonical]
  rfl

theorem sub_notNaN {x y : Float} (hx : x.isFinite) (hy : y.isFinite) : (x - y).isNaN = false := by
  have h := sub_eq (counts hx) (counts hy)
  have hu := unpack_ofModel_pack h.canonical
  change (Float.ofModel (.pack _)).toModel.unpack.isNaN = false
  rw [hu]
  have hfin := h.finite
  generalize UnpackedFloat.sub .binary64 x.toModel.unpack y.toModel.unpack = u at hfin
  cases u <;> simp_all [fitted, UnpackedFloat.isNaN, UnpackedFloat.isFinite]
  split_ifs <;> rfl

theorem sub_le_sub {x y y' : Float} (hx : x.isFinite) (hy : y.isFinite) (hy' : y'.isFinite)
    (h : y ≤ y') : x - y' ≤ x - y := by
  rw [le_iff (notNaN_of_finite hy) (notNaN_of_finite hy')] at h
  rw [le_iff (sub_notNaN hx hy') (sub_notNaN hx hy), spot_sub hx hy', spot_sub hx hy]
  exact bounded_mono (roundedInt_mono (by omega))

/-! ### The sign of a difference -/

theorem unpack_zero : (0 : Float).toModel.unpack = .zero .positive := by rfl
theorem zero_notNaN : (0 : Float).isNaN = false := by rfl
theorem spot_zero : spot 0 = 0 := by rw [spot, unpack_zero]; rfl

theorem sub_nonneg {x y : Float} (hx : x.isFinite) (hy : y.isFinite) (h : y ≤ x) : 0 ≤ x - y := by
  have hlim := limit_pos
  rw [le_iff (notNaN_of_finite hy) (notNaN_of_finite hx)] at h
  rw [le_iff zero_notNaN (sub_notNaN hx hy), spot_zero, spot_sub hx hy, bounded, roundedInt]
  split_ifs <;> omega

theorem abs_spot_lt {x : Float} (h : x.isFinite) : -limit < spot x ∧ spot x < limit := by
  have hpos := limit_pos
  have hfin : x.toModel.unpack.isFinite = true := h
  have hfit := fits x
  unfold spot
  cases hx : x.toModel.unpack with
  | notANumber | infinity s => simp [hx, UnpackedFloat.isFinite] at hfin
  | zero s => simp only [place, units]; omega
  | finite s m e hm =>
    rw [hx] at hfit
    have := hfit.lt_limit
    cases s <;> simp only [place, units, Sign.apply] <;> omega

theorem finite_or_infinite {x : Float} (h : x.isNaN = false) :
    x.isFinite ∨ x.toModel.unpack = .infinity .positive ∨
      x.toModel.unpack = .infinity .negative := by
  have hnan := unpack_ne h
  change x.toModel.unpack.isFinite = true ∨ _
  cases hx : x.toModel.unpack with
  | notANumber => exact absurd hx hnan
  | infinity s => cases s <;> simp
  | zero s | finite s m e h => exact Or.inl rfl

theorem spot_infinite {x : Float} {s : Sign} (h : x.toModel.unpack = .infinity s) :
    spot x = s.apply limit := by rw [spot, h]; rfl

theorem pos_of_infinite {x : Float} (h : x.toModel.unpack = .infinity .positive) : 0 < x := by
  change decide ((UnpackedFloat.compare (0 : Float).toModel.unpack x.toModel.unpack ==
    some .lt) = true) = true
  rw [h, unpack_zero]
  rfl

theorem unpack_sub {x y : Float} {u : UnpackedFloat} (hu : Canonical u)
    (h : UnpackedFloat.sub .binary64 x.toModel.unpack y.toModel.unpack = u) :
    (x - y).toModel.unpack = fitted u := by
  change unpack .binary64 (pack .binary64
    (UnpackedFloat.sub .binary64 x.toModel.unpack y.toModel.unpack)) = _
  rw [h]
  exact unpack_pack hu

theorem sub_pos_of_infinite {x y : Float}
    (h : UnpackedFloat.sub .binary64 x.toModel.unpack y.toModel.unpack = .infinity .positive) :
    0 < x - y := pos_of_infinite (unpack_sub (u := .infinity .positive) trivial h)

theorem sub_pos {x y : Float} (hx : x.isNaN = false) (hy : y.isNaN = false)
    (h : spot y < spot x) : 0 < x - y := by
  have hlim := limit_pos
  -- Only two finite floats are rounded; a difference with an infinity is infinite.
  rcases finite_or_infinite hx with hfx | hx | hx <;>
    rcases finite_or_infinite hy with hfy | hy | hy
  · rw [lt_iff zero_notNaN (sub_notNaN hfx hfy), spot_zero, spot_sub hfx hfy, bounded]
    have := roundedInt_pos (z := spot x - spot y) (by omega)
    omega
  · have := abs_spot_lt hfx
    simp only [spot_infinite hy, Sign.apply] at h
    omega
  · refine sub_pos_of_infinite ?_
    rw [hy]
    clear h hy
    change x.toModel.unpack.isFinite = true at hfx
    cases hu : x.toModel.unpack <;> first | rfl | simp [hu, UnpackedFloat.isFinite] at hfx
  · refine sub_pos_of_infinite ?_
    rw [hx]
    clear h hx
    change y.toModel.unpack.isFinite = true at hfy
    cases hu : y.toModel.unpack <;> first | rfl | simp [hu, UnpackedFloat.isFinite] at hfy
  · simp only [spot_infinite hx, spot_infinite hy, Sign.apply] at h
    omega
  · refine sub_pos_of_infinite ?_
    rw [hx, hy]
    rfl
  · have := abs_spot_lt hfy
    simp only [spot_infinite hx, Sign.apply] at h
    omega
  · simp only [spot_infinite hx, spot_infinite hy, Sign.apply] at h
    omega
  · simp only [spot_infinite hx, spot_infinite hy, Sign.apply] at h
    omega

theorem not_pos_of_infinite {x : Float} (h : x.toModel.unpack = .infinity .negative) :
    ¬ 0 < x := by
  change ¬ decide ((UnpackedFloat.compare (0 : Float).toModel.unpack x.toModel.unpack ==
    some .lt) = true) = true
  rw [h, unpack_zero]
  decide

theorem sub_isNaN {x y : Float}
    (h : UnpackedFloat.sub .binary64 x.toModel.unpack y.toModel.unpack = .notANumber) :
    (x - y).isNaN := by
  change (x - y).toModel.unpack.isNaN = true
  rw [unpack_sub (u := .notANumber) trivial h]
  rfl

theorem notNaN_of_sub {x y : Float} (h : (x - y).isNaN = false) :
    x.isNaN = false ∧ y.isNaN = false := by
  rw [← Bool.not_eq_true, ← Bool.not_eq_true, ← not_or]
  intro hnan
  change x.toModel.unpack.isNaN = true ∨ y.toModel.unpack.isNaN = true at hnan
  refine absurd (sub_isNaN ?_) (by rw [h]; exact Bool.false_ne_true)
  cases hx : x.toModel.unpack <;> cases hy : y.toModel.unpack <;>
    first | rfl | simp [hx, hy, UnpackedFloat.isNaN] at hnan

theorem lt_of_sub_pos {x y : Float} (h : 0 < x - y) : y < x := by
  have hlim := limit_pos
  have hdiff : (x - y).isNaN = false := by
    by_contra hnan
    exact not_lt_of_nan (.inr (by simpa using hnan)) h
  obtain ⟨hx, hy⟩ := notNaN_of_sub hdiff
  rw [lt_iff hy hx]
  by_contra hle
  have hnot (hsub : UnpackedFloat.sub .binary64 x.toModel.unpack y.toModel.unpack =
      .infinity .negative) : False :=
    not_pos_of_infinite (unpack_sub (u := .infinity .negative) trivial hsub) h
  have hnone (hsub : UnpackedFloat.sub .binary64 x.toModel.unpack y.toModel.unpack =
      .notANumber) : False := by
    rw [sub_isNaN hsub] at hdiff
    cases hdiff
  -- Where an infinity takes part the difference is no number, or `y < x` holds or fails by itself.
  rcases finite_or_infinite hx with hfx | hx | hx <;>
    rcases finite_or_infinite hy with hfy | hy | hy
  · rw [lt_iff zero_notNaN hdiff, spot_zero, spot_sub hfx hfy, bounded] at h
    have hround : roundedInt (spot x - spot y) ≤ roundedInt 0 := roundedInt_mono (by omega)
    have hzero : roundedInt 0 = 0 := by rfl
    omega
  · refine hnot ?_
    rw [hy]
    change x.toModel.unpack.isFinite = true at hfx
    cases hu : x.toModel.unpack <;> first | rfl | simp [hu, UnpackedFloat.isFinite] at hfx
  · have := abs_spot_lt hfx
    simp only [spot_infinite hy, Sign.apply] at hle
    omega
  · have := abs_spot_lt hfy
    simp only [spot_infinite hx, Sign.apply] at hle
    omega
  · exact hnone (by rw [hx, hy]; rfl)
  · simp only [spot_infinite hx, spot_infinite hy, Sign.apply] at hle
    omega
  · refine hnot ?_
    rw [hx]
    change y.toModel.unpack.isFinite = true at hfy
    cases hu : y.toModel.unpack <;> first | rfl | simp [hu, UnpackedFloat.isFinite] at hfy
  · exact hnot (by rw [hx, hy]; rfl)
  · exact hnone (by rw [hx, hy]; rfl)

theorem le_of_sub_not_pos {x y : Float} (hx : x.isNaN = false) (hy : y.isNaN = false)
    (h : ¬ 0 < x - y) : x ≤ y := by
  rw [le_iff hx hy]
  by_contra hlt
  exact h (sub_pos hx hy (not_le.1 hlt))

end Gameroom.Grid
