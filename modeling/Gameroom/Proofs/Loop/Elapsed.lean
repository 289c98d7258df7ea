import Gameroom.Proofs.Grid.Quotient
import Gameroom.Proofs.Loop.Timestep
import Gameroom.Proofs.Number.Exact

/-! What a frame counts when the clock shows whole milliseconds, and how many ticks it may run. -/

namespace Gameroom

/-- A number means a whole number: it is that one, or a float that stands for it. -/
inductive Number.Means : Number → Int → Prop
  | int (n : Int) : Means (.int n) n
  | float {x : Float} {n : Int} (h : IsWhole x n) : Means (.float x) n

def Json.Means (value : Json) (n : Int) : Prop := ∃ w, value.asNumber? = some w ∧ w.Means n

namespace Number.Means
variable {w : Number} {x : Float} {m n : Int}

theorem notNaN (h : w.Means n) : w.isNaN = false := by
  cases h with
  | int => rfl
  | float h => exact h.notNaN

theorem rank (h : w.Means n) (hn : n.natAbs ≤ 2 ^ 53) : w.rank = (Number.int n).rank := by
  cases h with
  | int => rfl
  | float h => exact h.rank hn

theorem order?_eq {v : Number} (hw : w.Means m) (hv : v.Means n) (hm : m.natAbs ≤ 2 ^ 53)
    (hn : n.natAbs ≤ 2 ^ 53) : w.order? v = some (compare m n) := by
  rw [Number.order?_eq hw.notNaN hv.notNaN, hw.rank hm, hv.rank hn, Number.rank, Number.rank,
    Grid.compare_coe, Grid.compare_mul Grid.unity_pos]

theorem toFloat (h : w.Means n) (hn : n.natAbs ≤ 2 ^ 53) :
    ∃ x, w.toFloat = .ok x ∧ IsWhole x n := by
  cases h with
  | int => exact ⟨floatOfInt n, if_pos (IsWhole.ofInt hn).finite, .ofInt hn⟩
  | float h => exact ⟨_, rfl, h⟩

end Number.Means

namespace Json
variable {a b : Json} {x : Float} {m n : Int}

theorem Means.float (h : IsWhole x n) : (Json.float x).Means n := ⟨.float x, rfl, .float h⟩

theorem Means.toFloat (h : a.Means n) (hn : n.natAbs ≤ 2 ^ 53) :
    ∃ x, a.toFloat = .ok x ∧ IsWhole x n := by
  obtain ⟨w, hw, hmeans⟩ := h
  cases a with
  | bool b =>
    cases hw
    cases hmeans
    cases b with
    | false => exact ⟨0, rfl, .zero⟩
    | true => exact ⟨1, rfl, by rfl, by decide +kernel⟩
  | number =>
    cases hw
    exact hmeans.toFloat hn
  | null | text | list | object => cases hw

theorem min_means (ha : IsWhole x m) (hb : b.Means n) (hm : m.natAbs ≤ 2 ^ 53)
    (hn : n.natAbs ≤ 2 ^ 53) :
    ∃ c : Json, (Json.float x).min b = .ok c ∧ c.Means (Min.min m n) := by
  obtain ⟨w, hw, hmeans⟩ := hb
  have hbefore := before_number (x := x) hw
  rw [hmeans.order?_eq (.float ha) hn hm] at hbefore
  rw [Json.min, hbefore]
  rcases lt_or_ge n m with h | h
  · rw [compare_lt_iff_lt.2 h, min_eq_right h.le]
    exact ⟨b, rfl, w, hw, hmeans⟩
  · have hnot : (some (compare n m) == some .lt) = false := by
      simpa [compare_lt_iff_lt] using h
    rw [hnot, min_eq_left h]
    exact ⟨.float x, rfl, .float ha⟩

theorem max_means (ha : IsWhole x m) (hb : b.Means n) (hm : m.natAbs ≤ 2 ^ 53)
    (hn : n.natAbs ≤ 2 ^ 53) :
    ∃ c : Json, (Json.float x).max b = .ok c ∧ c.Means (Max.max m n) := by
  obtain ⟨w, hw, hmeans⟩ := hb
  have hafter := after_number (x := x) hw
  rw [hmeans.order?_eq (.float ha) hn hm] at hafter
  rw [Json.max, hafter]
  rcases lt_or_ge m n with h | h
  · rw [compare_gt_iff_gt.2 h, max_eq_right h.le]
    exact ⟨b, rfl, w, hw, hmeans⟩
  · have hnot : (some (compare n m) == some .gt) = false := by
      simpa [compare_gt_iff_gt] using h
    rw [hnot, max_eq_left h]
    exact ⟨.float x, rfl, .float ha⟩

end Json

namespace Loop
variable {l : Loop} {t u bound : Int}

/-- The whole milliseconds that a frame counts between two readings of the clock. -/
def counted (bound u t : Int) : Int := max 0 (min (t - u) bound)

theorem counted_nonneg (bound u t : Int) : 0 ≤ counted bound u t := le_max_left _ _

theorem counted_le (hbound : 0 ≤ bound) : counted bound u t ≤ bound :=
  max_le hbound (min_le_right _ _)

theorem elapsed_whole (hhost : IsWhole l.host t) (hlast : IsWhole l.lastTime u)
    (hframe : l.maxFrame.Means bound) (ht : t.natAbs ≤ 2 ^ 52) (hu : u.natAbs ≤ 2 ^ 52)
    (hlow : 0 ≤ bound) (hhigh : bound ≤ 2 ^ 52) :
    ∃ x, (l.elapsed >>= Json.toFloat) = .ok x ∧ IsWhole x (counted bound u t) := by
  have hdiff : (t - u).natAbs ≤ 2 ^ 53 := by omega
  obtain ⟨low, hmin, hlowMeans⟩ :=
    Json.min_means (hhost.sub hlast hdiff) hframe hdiff (by omega)
  obtain ⟨e, hmax, heMeans⟩ := Json.max_means IsWhole.zero hlowMeans (by decide) (by omega)
  obtain ⟨x, hx, hwhole⟩ := heMeans.toFloat (by omega)
  refine ⟨x, ?_, hwhole⟩
  have helapsed : l.elapsed = .ok e := by
    rw [elapsed, hmin]
    exact hmax
  rw [helapsed]
  exact hx

theorem finite_of_value {x : Float} {v : Scaled} (h : Scaled.ofFloat? x = some v) :
    x.isFinite := by
  change x.toModel.unpack.isFinite = true
  unfold Scaled.ofFloat? at h
  cases hu : x.toModel.unpack <;> first | rfl | (rw [hu] at h; cases h)

theorem num_le_ceil_mul (v : Scaled) (hden : 0 < v.den) : v.num ≤ v.ceil * v.den := by
  have hfloor := Int.ediv_mul_le (-v.num) (show (v.den : Int) ≠ 0 by omega)
  rw [Scaled.ceil, Int.fdiv_eq_ediv_of_nonneg _ (Int.natCast_nonneg _), neg_mul]
  omega

theorem three_mul_spot_lt {v : Scaled} (hv : Scaled.ofFloat? (l.accumulator / l.timestep) = some v)
    (ha : l.accumulator.isFinite) (hstep : l.timestep.isFinite) (hpos : 0 < Grid.spot l.timestep)
    (hle : Grid.spot l.timestep ≤ Grid.spot l.accumulator) :
    3 * Grid.spot l.accumulator < 4 * v.ceil * Grid.spot l.timestep := by
  have hunity : (0 : Int) < Grid.unity := by exact_mod_cast Grid.unity_pos
  have hfinite := finite_of_value hv
  obtain ⟨v', hv', hden, hvalue⟩ := Grid.exists_value hfinite
  obtain rfl : v = v' := Option.some.inj (hv.symm.trans hv')
  have hquotient := Grid.three_mul_lt_spot_div ha hstep hpos hle hfinite
  have hceil : Grid.spot (l.accumulator / l.timestep) ≤ v.ceil * Grid.unity := by
    have hden' : (0 : Int) < v.den := by omega
    refine le_of_mul_le_mul_right ?_ hden'
    calc Grid.spot (l.accumulator / l.timestep) * v.den = v.num * Grid.unity := hvalue.symm
      _ ≤ v.ceil * v.den * Grid.unity :=
        mul_le_mul_of_nonneg_right (num_le_ceil_mul v hden) hunity.le
      _ = v.ceil * Grid.unity * v.den := by ring
  refine lt_of_mul_lt_mul_right ?_ hunity.le
  calc 3 * Grid.spot l.accumulator * Grid.unity = 3 * (Grid.spot l.accumulator * Grid.unity) := by
        ring
    _ < 4 * Grid.spot (l.accumulator / l.timestep) * Grid.spot l.timestep := hquotient
    _ ≤ 4 * (v.ceil * Grid.unity) * Grid.spot l.timestep := by gcongr
    _ = 4 * v.ceil * Grid.spot l.timestep * Grid.unity := by ring

theorem le_ticksWithin {a step : Int} (ha : IsWhole l.accumulator a)
    (hstep : IsWhole l.timestep step) (hpos : 1 ≤ step) (hlow : 0 ≤ a) (hhigh : a ≤ 2 ^ 53) :
    (a / step).toNat ≤ l.ticksWithin := by
  have hunity : (0 : Int) < Grid.unity := by exact_mod_cast Grid.unity_pos
  unfold ticksWithin
  split
  · rename_i v hv
    rcases lt_or_ge a step with hless | hmore
    · rw [Int.ediv_eq_zero_of_lt hlow hless]
      exact Nat.zero_le _
    · have hspots := three_mul_spot_lt hv ha.finite hstep.finite
        (by rw [hstep.spot]; exact mul_pos (by omega) hunity)
        (by rw [hstep.spot, ha.spot]; exact mul_le_mul_of_nonneg_right hmore hunity.le)
      rw [ha.spot, hstep.spot, ← mul_assoc, ← mul_assoc] at hspots
      have hlt : 3 * a < 4 * v.ceil * step := lt_of_mul_lt_mul_right hspots hunity.le
      have hdiv : a / step < 2 * v.ceil := Int.ediv_lt_of_lt_mul (by omega) (by linarith)
      omega
  · have hdiv : a / step ≤ a := Int.ediv_le_self step hlow
    have hsize : UInt64.size = 2 ^ 64 := rfl
    omega

end Loop
end Gameroom
