import Gameroom.Proofs.Grid.Taking
import Gameroom.Proofs.Loop.Elapsed

/-!
The time that a loop counts and the time that its ticks take. A frame never takes time back, and the
ticks that it may run are enough, unless a tick takes so little that it is lost in rounding.
-/

namespace Gameroom

namespace Number
variable {n : Number} {x y : Float}

theorem spots_of_order? {o : Ordering} (h : (Number.float x).order? (.float y) = some o) :
    compare (Grid.spot x) (Grid.spot y) = o := by
  obtain ⟨hx, hy⟩ := notNaN_of_order? h
  rw [order?_float hx hy] at h
  exact Option.some.inj h

theorem toFloat_nonneg (h : n.order? (.float 0) = some .gt) (hx : n.toFloat = .ok x) : 0 ≤ x := by
  cases n with
  | int i =>
    obtain rfl := eq_of_toFloat hx
    have horder : (Number.int i).order? (.float 0) = some (compare i 0) :=
      order?_int_whole i (n := 0) (by decide)
    rw [horder, Option.some_inj, Int.compare_eq_gt] at h
    have hpos := Grid.roundedInt_mono (mul_nonneg h.le (Int.natCast_nonneg Grid.unity))
    have hlim := Grid.limit_pos
    rw [Grid.roundedInt_eq_zero.2 rfl] at hpos
    rw [Grid.le_iff Grid.zero_notNaN (Grid.floatOfInt_notNaN i), Grid.spot_zero,
      Grid.spot_floatOfInt, Grid.bounded]
    omega
  | float y =>
    cases hx
    have hspots := spots_of_order? h
    rw [Grid.spot_zero, Int.compare_eq_gt] at hspots
    rw [Grid.le_iff Grid.zero_notNaN (notNaN_of_order? h).1, Grid.spot_zero]
    exact hspots.le

end Number

namespace Loop
variable {l : Loop} {t x a step : Float}

/-- A tick lasts for more than nothing and not for ever. -/
structure Lasting (step : Float) : Prop where
  finite : step.isFinite
  pos : 0 < Grid.spot step

namespace Lasting

theorem notNaN (h : Lasting step) : step.isNaN = false := Grid.notNaN_of_finite h.finite

theorem nonneg (h : Lasting step) : 0 ≤ step := by
  rw [Grid.le_iff Grid.zero_notNaN h.notNaN, Grid.spot_zero]
  exact h.pos.le

theorem zero_lt (h : Lasting step) : 0 < step := by
  rw [Grid.lt_iff Grid.zero_notNaN h.notNaN, Grid.spot_zero]
  exact h.pos

theorem lt_of_not_le (h : Lasting step) (ha : 0 ≤ a) (hnot : ¬ step ≤ a) : a < step := by
  have hnan := (Grid.notNaN_of_le ha).2
  rw [Grid.le_iff h.notNaN hnan, not_le] at hnot
  exact (Grid.lt_iff hnan h.notNaN).2 hnot

end Lasting

theorem lasting_of_held (h : timestepOf (.float t) = .ok t) : Lasting t := by
  obtain ⟨held, hheld, ht⟩ := ok_of_bind h
  rcases Json.clamp_ok hheld with rfl | rfl | ⟨n, hn, ⟨hhi, hlo⟩, rfl⟩
  · cases ht
    exact ⟨by rfl, by decide +kernel⟩
  · cases ht
    exact ⟨by rfl, by decide +kernel⟩
  · cases hn
    have hhigh := Number.spots_of_order? hhi
    have hlow := Number.spots_of_order? hlo
    rw [Int.compare_eq_lt] at hhigh
    rw [Int.compare_eq_gt] at hlow
    have hbound : Grid.spot 100 < Grid.limit := by decide +kernel
    have hone : 0 < Grid.spot 1 := by decide +kernel
    refine ⟨?_, by omega⟩
    rcases Grid.finite_or_infinite (Number.notNaN_of_order? hlo).1 with hfin | hinf | hinf
    · exact hfin
    · simp only [Grid.spot_infinite hinf, Float.Model.UnpackedFloat.Sign.apply] at hhigh
      omega
    · simp only [Grid.spot_infinite hinf, Float.Model.UnpackedFloat.Sign.apply] at hlow
      omega

theorem elapsed_nonneg (h : (l.elapsed >>= Json.toFloat) = .ok x) : 0 ≤ x := by
  obtain ⟨e, he, hx⟩ := ok_of_bind h
  obtain ⟨low, -, hmax⟩ := ok_of_bind he
  obtain ⟨after, hafter, hmax⟩ := ok_of_bind hmax
  cases after with
  | false =>
    cases hmax
    cases hx
    decide
  | true =>
    cases hmax
    obtain ⟨o, ho, -⟩ := ok_of_map hafter
    obtain ⟨n, hn⟩ := Json.number_of_order? ho
    rw [Json.after_number hn] at hafter
    have horder : n.order? (.float 0) = some .gt := by simpa using hafter
    cases low with
    | bool b =>
      cases hx
      cases b <;> decide
    | number =>
      cases hn
      exact Number.toFloat_nonneg horder hx
    | null | text | list | object => cases hn

/-! ### Enough ticks -/

/-- A tick is due, but what it takes is lost in rounding. -/
def Vain (a step : Float) : Prop := step ≤ a ∧ a ≤ a - step

/-- So many ticks are enough for the time that is not spent, unless they are in vain. -/
def Enough (ticks : Nat) (a step : Float) : Prop :=
  Vain a step ∨ 3 * Grid.spot a ≤ 2 * ticks * Grid.spot step

theorem Vain.next (h : Vain a step) (hstep : Lasting step) : Vain (a - step) step :=
  ⟨Grid.le_trans h.1 h.2,
    Grid.le_sub_again (Grid.le_trans hstep.nonneg h.1) hstep.finite h.2⟩

theorem Enough.next {ticks : Nat} (h : Enough (ticks + 1) a step) (hstep : Lasting step)
    (hdue : step ≤ a) : Enough ticks (a - step) step := by
  rcases Grid.taken hstep.finite hstep.nonneg hdue with hvain | htaken
  · exact .inl (Vain.next ⟨hdue, hvain⟩ hstep)
  rcases h with hvain | henough
  · exact .inl (hvain.next hstep)
  · refine .inr ?_
    have hone : 2 * ((ticks + 1 : Nat) : Int) * Grid.spot step =
        2 * ticks * Grid.spot step + 2 * Grid.spot step := by push_cast; ring
    omega

theorem Enough.ended (h : Enough 0 a step) (hstep : Lasting step) (ha : 0 ≤ a) :
    a < step ∨ Vain a step := by
  rcases h with hvain | hnone
  · exact .inr hvain
  · refine .inl ?_
    have hpos := hstep.pos
    rw [Grid.lt_iff (Grid.notNaN_of_le ha).2 hstep.notNaN]
    simp only [Nat.cast_zero, mul_zero, zero_mul] at hnone
    omega

theorem enough_ticksWithin (hstep : Lasting l.timestep) (ha : 0 ≤ l.accumulator) :
    Enough l.ticksWithin l.accumulator l.timestep := by
  have hpos := hstep.pos
  -- An infinity is never used up, so only a finite rest has to run out.
  rcases Grid.nonneg_cases ha with ⟨hfin, hspot⟩ | hinf
  · unfold ticksWithin
    split
    · rename_i v hv
      refine .inr ?_
      have hticks : 2 * ((2 * v.ceil.toNat + 2 : Nat) : Int) * Grid.spot l.timestep =
          4 * (v.ceil.toNat * Grid.spot l.timestep) + 4 * Grid.spot l.timestep := by
        push_cast
        ring
      have hnonneg := mul_nonneg (Int.natCast_nonneg v.ceil.toNat) hpos.le
      have hceil := mul_le_mul_of_nonneg_right (Int.self_le_toNat v.ceil) hpos.le
      rw [hticks]
      rcases lt_or_ge (Grid.spot l.accumulator) (Grid.spot l.timestep) with hless | hdue
      · omega
      · have hspots := three_mul_spot_lt hv hfin hstep.finite hpos hdue
        rw [mul_assoc] at hspots
        omega
    · rcases le_or_gt (2 ^ 55 * Grid.spot l.timestep) (Grid.spot l.accumulator) with hmore | hless
      · refine .inl ⟨?_, Grid.le_sub_of_small hfin hstep.finite hpos.le hmore⟩
        rw [Grid.le_iff hstep.notNaN (Grid.notNaN_of_finite hfin)]
        omega
      · have hsize : UInt64.size = 2 ^ 64 := rfl
        refine .inr ?_
        rw [hsize]
        push_cast
        omega
  · have hnan := Grid.notNaN_of_infinite hinf
    exact .inl ⟨Grid.le_of_infinite hstep.notNaN hinf,
      Grid.le_of_infinite hnan (Grid.sub_of_infinite hinf hstep.finite)⟩

end Loop
end Gameroom
