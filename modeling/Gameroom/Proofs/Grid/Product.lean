import Gameroom.Proofs.Grid.Quotient
import Gameroom.Proofs.Number.Exact

/-!
Products of floats. Those of whole numbers are exact, and one with a factor below one is not above
the other factor. A quotient by `2 ^ 53` is exact.
-/

open Float.Model (Format UnpackedFloat totalExponent)
open Float.Model.UnpackedFloat

namespace Gameroom

namespace Grid

variable {m₁ m₂ : Nat} {e₁ e₂ : Int} {hm₁ : 0 < m₁} {hm₂ : 0 < m₂}

theorem bits_of_product (h₁ : Canonical (.finite .positive m₁ e₁ hm₁))
    (h₂ : Canonical (.finite .positive m₂ e₂ hm₂)) :
    ∃ k : Nat, max ((m₁ * m₂).log2 + (e₁ + e₂) - 52) (-1074) = e₁ + e₂ + k := by
  obtain ⟨-, he₁, hlow₁⟩ := h₁
  obtain ⟨-, he₂, hlow₂⟩ := h₂
  suffices h : e₁ + e₂ ≤ max ((m₁ * m₂).log2 + (e₁ + e₂) - 52) (-1074) from
    ⟨(max ((m₁ * m₂).log2 + (e₁ + e₂) - 52) (-1074) - (e₁ + e₂)).toNat, by omega⟩
  have hbits (h : 2 ^ 52 ≤ m₁ ∨ 2 ^ 52 ≤ m₂) : 52 ≤ (m₁ * m₂).log2 := by
    rw [Nat.le_log2 (Nat.mul_pos hm₁ hm₂).ne']
    rcases h with h | h
    · exact h.trans (Nat.le_mul_of_pos_right _ hm₂)
    · exact h.trans (Nat.le_mul_of_pos_left _ hm₁)
  rcases hlow₁ with hlow₁ | rfl
  · have := hbits (.inl hlow₁)
    omega
  · rcases hlow₂ with hlow₂ | rfl
    · have := hbits (.inr hlow₂)
      omega
    · omega

theorem div_eq_shifted (h₁ : Canonical (.finite .positive m₁ e₁ hm₁)) (he : -52 ≤ e₁) :
    Counts (UnpackedFloat.div .binary64 (.finite .positive m₁ e₁ hm₁)
      (.finite .positive (2 ^ 52) 1 (Nat.two_pow_pos 52))) (m₁ * 2 ^ (e₁ + 1021).toNat : Nat) := by
  have hlow : 2 ^ 52 ≤ m₁ := h₁.2.2.resolve_right (by omega)
  have hlog : m₁.log2 = 52 := (Nat.log2_eq_iff hm₁.ne').2 ⟨hlow, h₁.1⟩
  have hdiv : UnpackedFloat.div .binary64 (.finite .positive m₁ e₁ hm₁)
      (.finite .positive (2 ^ 52) 1 (Nat.two_pow_pos 52)) =
        roundWithAccuracy .binary64 .positive (m₁ * 2 ^ 1) (e₁ - 54) .exact := by
    have hdouble : m₁ * 2 ^ 53 / 2 ^ 52 = m₁ * 2 ^ 1 := by omega
    have hrest : m₁ * 2 ^ 53 % 2 ^ 52 = 0 := by omega
    rw [div_rounds hm₁ (Nat.two_pow_pos 52) (t := e₁ - 54) (j := 53) (by rw [hlog, Nat.log2_two_pow]; omega) (by omega),
      hdouble, hrest]
    rfl
  have hdouble : (m₁ * 2 ^ 1).log2 = 53 := by rw [log2_mul_pow hm₁, hlog]
  have hcounts := roundWithAccuracy_eq .positive (Nat.mul_pos hm₁ (Nat.two_pow_pos 1))
    (e := e₁ - 54) (by omega) (by omega)
  have hexponent : 1 + (e₁ - 54 + 1074).toNat = (e₁ + 1021).toNat := by omega
  rwa [mul_assoc, ← Nat.pow_add, hexponent, rounded_mul_pow h₁.1, ← hdiv] at hcounts

/-! ### What results count -/

variable {x y : Float}

theorem spot_of_zero {s : Sign} (hx : x.toModel.unpack = .zero s) : x.isFinite ∧ spot x = 0 := by
  constructor
  · change x.toModel.unpack.isFinite = true
    rw [hx]
    rfl
  · rw [spot, hx]
    rfl

theorem spot_mul {z : Nat} (hx : x.toModel.unpack = .finite .positive m₁ e₁ hm₁)
    (hy : y.toModel.unpack = .finite .positive m₂ e₂ hm₂)
    (hz : Counts (UnpackedFloat.mul .binary64 (.finite .positive m₁ e₁ hm₁)
      (.finite .positive m₂ e₂ hm₂)) z) (hlim : z < limit) :
    (x * y).isFinite ∧ spot (x * y) = z := by
  refine spot_of_counts ?_ hz hlim
  rw [← unpack_pack hz.canonical, ← hx, ← hy]
  rfl

theorem unpack_of_spot_zero (hx : x.isFinite) (h : spot x = 0) :
    ∃ s, x.toModel.unpack = .zero s := by
  obtain ⟨-, hfin, hunits⟩ := counts hx
  cases hu : x.toModel.unpack with
  | notANumber | infinity s =>
    rw [hu] at hfin
    cases hfin
  | zero s => exact ⟨s, rfl⟩
  | finite s m e hm =>
    have hpos := Nat.mul_pos hm (Nat.two_pow_pos (e + 1074).toNat)
    rw [hu, h] at hunits
    cases s <;> simp only [units, Sign.apply] at hunits <;> omega

theorem spot_mul_zero (hx : x.isFinite) (hy : y.isFinite)
    (h : spot x = 0 ∨ spot y = 0) : (x * y).isFinite ∧ spot (x * y) = 0 := by
  have hzero : ∃ s, UnpackedFloat.mul .binary64 x.toModel.unpack y.toModel.unpack = .zero s := by
    have hfx : x.toModel.unpack.isFinite = true := hx
    have hfy : y.toModel.unpack.isFinite = true := hy
    rcases h with h | h
    · obtain ⟨s, hs⟩ := unpack_of_spot_zero hx h
      rw [hs]
      cases hu : y.toModel.unpack with
      | notANumber | infinity => rw [hu] at hfy; cases hfy
      | zero | finite => exact ⟨_, rfl⟩
    · obtain ⟨s, hs⟩ := unpack_of_spot_zero hy h
      rw [hs]
      cases hu : x.toModel.unpack with
      | notANumber | infinity => rw [hu] at hfx; cases hfx
      | zero | finite => exact ⟨_, rfl⟩
  obtain ⟨s, hs⟩ := hzero
  refine spot_of_zero (s := s) ?_
  change unpack .binary64 (pack .binary64 (UnpackedFloat.mul .binary64 _ _)) = _
  rw [hs, unpack_pack (u := .zero s) trivial]
  rfl

theorem halfEven_product_le (h₁ : Canonical (.finite .positive m₁ e₁ hm₁))
    (h₂ : Canonical (.finite .positive m₂ e₂ hm₂)) (hsmall : m₂ * 2 ^ (e₂ + 1074).toNat < unity)
    {k : Nat} (hk : max ((m₁ * m₂).log2 + (e₁ + e₂) - 52) (-1074) = e₁ + e₂ + k) :
    halfEven (m₁ * m₂) k * 2 ^ (e₁ + e₂ + k + 1074).toNat ≤ m₁ * 2 ^ (e₁ + 1074).toNat := by
  obtain ⟨hbits₁, he₁, -⟩ := h₁
  obtain ⟨hbits₂, he₂, hlow₂⟩ := h₂
  have hlog : (m₁ * m₂).log2 < 106 := by
    rw [Nat.log2_lt (Nat.mul_pos hm₁ hm₂).ne']
    exact (Nat.mul_lt_mul'' hbits₁ hbits₂).trans_le (by norm_num)
  have hexponent : e₂ ≤ -53 := by
    rcases hlow₂ with hlow₂ | rfl
    · by_contra hlarge
      have hone : unity ≤ m₂ * 2 ^ (e₂ + 1074).toNat := by
        calc unity = 2 ^ 52 * 2 ^ (depth - 52) := by
              rw [unity, ← Nat.pow_add, Nat.add_sub_cancel' (by decide : 52 ≤ depth)]
          _ ≤ m₂ * 2 ^ (e₂ + 1074).toNat :=
            Nat.mul_le_mul hlow₂ (Nat.pow_le_pow_right Nat.two_pos (by unfold depth; omega))
      omega
    · decide
  -- The last place of the product is one of the other factor.
  obtain ⟨j, hj⟩ : ∃ j : Nat, e₁ = e₁ + e₂ + k + j := ⟨(-(e₂ + k)).toNat, by omega⟩
  have hmantissa : m₂ < 2 ^ (k + j) := by
    refine Nat.lt_of_mul_lt_mul_right (a := 2 ^ (e₂ + 1074).toNat) (hsmall.trans_eq ?_)
    rw [unity, ← Nat.pow_add]
    congr 1
    unfold depth
    omega
  have hround : halfEven (m₁ * 2 ^ j * 2 ^ k) k = m₁ * 2 ^ j := by
    have h := halfEven_mul_pow (m₁ * 2 ^ j) 0 k
    rwa [Nat.zero_add, halfEven_zero] at h
  have hless : m₁ * m₂ ≤ m₁ * 2 ^ j * 2 ^ k := by
    rw [mul_assoc, ← Nat.pow_add, Nat.add_comm]
    exact Nat.mul_le_mul_left m₁ hmantissa.le
  have hplaces : (e₁ + 1074).toNat = j + (e₁ + e₂ + k + 1074).toNat := by omega
  calc halfEven (m₁ * m₂) k * 2 ^ (e₁ + e₂ + k + 1074).toNat
      ≤ m₁ * 2 ^ j * 2 ^ (e₁ + e₂ + k + 1074).toNat :=
        Nat.mul_le_mul_right _ ((halfEven_mono k hless).trans_eq hround)
    _ = m₁ * 2 ^ (e₁ + 1074).toNat := by rw [hplaces, Nat.pow_add, mul_assoc]

theorem spot_mul_le (hx : x.isFinite) (hxlow : 0 ≤ spot x) (hy : y.isFinite) (hylow : 0 ≤ spot y)
    (hyhigh : spot y < unity) : (x * y).isFinite ∧ 0 ≤ spot (x * y) ∧ spot (x * y) ≤ spot x := by
  by_cases hzero : spot x = 0 ∨ spot y = 0
  · obtain ⟨hfin, hspot⟩ := spot_mul_zero hx hy hzero
    exact ⟨hfin, hspot.ge, hspot.le.trans hxlow⟩
  obtain ⟨hx0, hy0⟩ := not_or.1 hzero
  obtain ⟨m₁, e₁, hm₁, hu₁, hc₁, hspot₁⟩ := exists_mantissa hx (by omega)
  obtain ⟨m₂, e₂, hm₂, hu₂, hc₂, hspot₂⟩ := exists_mantissa hy (by omega)
  obtain ⟨k, hk⟩ := bits_of_product hc₁ hc₂
  rw [hspot₂] at hyhigh
  have hle := halfEven_product_le hc₁ hc₂ (Int.ofNat_lt.1 hyhigh) hk
  have hlim : m₁ * 2 ^ (e₁ + 1074).toNat < limit := by
    have := (abs_spot_lt hx).2
    rw [hspot₁] at this
    exact Int.ofNat_lt.1 this
  obtain ⟨hfin, hspot⟩ := spot_mul hu₁ hu₂
    (roundWithAccuracy_shifted .positive (Nat.mul_pos hm₁ hm₂) hk) (hle.trans_lt hlim)
  rw [hspot, hspot₁]
  exact ⟨hfin, Int.natCast_nonneg _, Int.ofNat_le.2 hle⟩

end Grid

namespace IsWhole
open Grid
variable {x y : Float} {m n : Nat}

theorem spot_zero (hx : IsWhole x (0 : Nat)) : Grid.spot x = 0 :=
  hx.spot.trans (zero_mul _)

theorem lt_limit (h : n ≤ 2 ^ 53) : n * unity < limit := by
  have hlim := whole_le_limit (n := n) h
  rwa [Int.natAbs_mul, Int.natAbs_natCast, Int.natAbs_natCast] at hlim

theorem exists_mantissa (hx : IsWhole x n) (hn : 0 < n) :
    ∃ m e, ∃ hm : 0 < m, x.toModel.unpack = .finite .positive m e hm ∧
      Canonical (.finite .positive m e hm) ∧ m * 2 ^ (e + 1074).toNat = n * unity ∧ -52 ≤ e := by
  have hpos : 0 < n * unity := Nat.mul_pos hn unity_pos
  obtain ⟨m, e, hm, hu, hc, hspot⟩ :=
    Grid.exists_mantissa hx.finite (by rw [hx.spot]; exact_mod_cast hpos)
  have hunits : m * 2 ^ (e + 1074).toNat = n * unity := by
    rw [hx.spot] at hspot
    exact_mod_cast hspot.symm
  refine ⟨m, e, hm, hu, hc, hunits, ?_⟩
  by_contra hlow
  have hsmall : m * 2 ^ (e + 1074).toNat < unity := by
    calc m * 2 ^ (e + 1074).toNat < 2 ^ 53 * 2 ^ (e + 1074).toNat :=
          Nat.mul_lt_mul_of_pos_right hc.1 (Nat.two_pow_pos _)
      _ = 2 ^ (53 + (e + 1074).toNat) := (Nat.pow_add _ _ _).symm
      _ ≤ unity := Nat.pow_le_pow_right Nat.two_pos (by unfold depth; omega)
  have hone : unity ≤ n * unity := Nat.le_mul_of_pos_left _ hn
  omega

theorem mul (hx : IsWhole x m) (hy : IsWhole y n) (h : m * n ≤ 2 ^ 53) :
    IsWhole (x * y) (m * n : Nat) := by
  -- A zero has no mantissa, so it is set apart on either side.
  rcases Nat.eq_zero_or_pos m with rfl | hm
  · obtain ⟨hfin, hspot⟩ := spot_mul_zero hx.finite hy.finite (.inl hx.spot_zero)
    exact ⟨hfin, by rw [hspot, Nat.zero_mul, Nat.cast_zero, zero_mul]⟩
  rcases Nat.eq_zero_or_pos n with rfl | hn
  · obtain ⟨hfin, hspot⟩ := spot_mul_zero hx.finite hy.finite (.inr hy.spot_zero)
    exact ⟨hfin, by rw [hspot, Nat.mul_zero, Nat.cast_zero, zero_mul]⟩
  obtain ⟨m₁, e₁, hm₁, hu₁, hc₁, hunits₁, he₁⟩ := hx.exists_mantissa hm
  obtain ⟨m₂, e₂, hm₂, hu₂, hc₂, hunits₂, he₂⟩ := hy.exists_mantissa hn
  obtain ⟨k, hk⟩ := bits_of_product hc₁ hc₂
  have hunits : m₁ * m₂ * 2 ^ (e₁ + e₂ + 1074).toNat = m * n * unity := by
    refine Nat.eq_of_mul_eq_mul_right unity_pos ?_
    have hpow : 2 ^ (e₁ + e₂ + 1074).toNat * unity =
        2 ^ (e₁ + 1074).toNat * 2 ^ (e₂ + 1074).toNat := by
      rw [unity, ← Nat.pow_add, ← Nat.pow_add]
      congr 1
      unfold depth
      omega
    calc m₁ * m₂ * 2 ^ (e₁ + e₂ + 1074).toNat * unity
        = m₁ * 2 ^ (e₁ + 1074).toNat * (m₂ * 2 ^ (e₂ + 1074).toNat) := by
          rw [mul_assoc, hpow]
          ring
      _ = m * n * unity * unity := by rw [hunits₁, hunits₂]; ring
  have hcounts := roundWithAccuracy_eq .positive (Nat.mul_pos hm₁ hm₂)
    (e := e₁ + e₂) (by omega) (by omega)
  rw [hunits, rounded_whole h] at hcounts
  obtain ⟨hfin, hspot⟩ := spot_mul hu₁ hu₂ hcounts (lt_limit h)
  exact ⟨hfin, by rw [hspot, Nat.cast_mul (m * n) unity]⟩

theorem div_pow (hx : IsWhole x n) (hn : n < 2 ^ 53) :
    (x / 9007199254740992.0).isFinite ∧ 0 ≤ Grid.spot (x / 9007199254740992.0) ∧
      Grid.spot (x / 9007199254740992.0) < unity := by
  have hy : (9007199254740992.0 : Float).toModel.unpack =
    .finite .positive (2 ^ 52) 1 (Nat.two_pow_pos 52) := rfl
  rcases Nat.eq_zero_or_pos n with rfl | hpos
  · obtain ⟨s, hs⟩ := unpack_of_spot_zero hx.finite hx.spot_zero
    obtain ⟨hfin, hspot⟩ := spot_of_zero (x := x / 9007199254740992.0) (s := s / .positive) (by
      change unpack .binary64 (pack .binary64 (UnpackedFloat.div .binary64 _ _)) = _
      rw [hs, hy, UnpackedFloat.div, unpack_pack (u := .zero _) trivial]
      rfl)
    exact ⟨hfin, hspot.ge, hspot.trans_lt (Int.natCast_pos.2 unity_pos)⟩
  obtain ⟨m, e, hm, hu, hc, hunits, he⟩ := hx.exists_mantissa hpos
  have hcounts := div_eq_shifted hc he
  -- Below `2 ^ 53` halves, so the quotient stays below one, and it has few enough bits to be exact.
  have hless : m * 2 ^ (e + 1021).toNat < unity := by
    refine Nat.lt_of_mul_lt_mul_right (a := 2 ^ 53) ?_
    have hpow : 2 ^ (e + 1021).toNat * 2 ^ 53 = 2 ^ (e + 1074).toNat := by
      rw [← Nat.pow_add]
      congr 1
      omega
    calc m * 2 ^ (e + 1021).toNat * 2 ^ 53 = n * unity := by rw [mul_assoc, hpow, hunits]
      _ < unity * 2 ^ 53 := by
        rw [Nat.mul_comm unity]
        exact Nat.mul_lt_mul_of_pos_right hn unity_pos
  have hlim : 1 * unity < limit := lt_limit (Nat.one_le_two_pow)
  rw [Nat.one_mul] at hlim
  obtain ⟨hfin, hspot⟩ := spot_of_counts (x := x / 9007199254740992.0) (by
    rw [← unpack_pack hcounts.canonical, ← hu, ← hy]
    rfl) hcounts (hless.trans hlim)
  rw [hspot]
  exact ⟨hfin, Int.natCast_nonneg _, Int.ofNat_lt.2 hless⟩

end IsWhole
end Gameroom
