import Gameroom.Proofs.Grid.Arithmetic

/-! The order of numbers is that of a line on which whole numbers and floats have their places. -/

open Float.Model (Format UnpackedFloat)
open Float.Model.UnpackedFloat

namespace Gameroom

namespace Grid

/-- The units of a whole number are so many times a power of two. -/
def depth : Nat := 1074

def unity : Nat := 2 ^ depth

/-- A place of a float on the line of all numbers, which has ends. -/
def onLine (z : Int) : WithBot (WithTop Int) :=
  if (limit : Int) ≤ z then ⊤
  else if z ≤ -limit then ⊥
  else ((z : WithTop Int) : WithBot (WithTop Int))

theorem onLine_limit : onLine limit = ⊤ := if_pos le_rfl

theorem onLine_neg_limit : onLine (-limit) = ⊥ := by
  have := limit_pos
  rw [onLine, if_neg (by omega), if_pos le_rfl]

theorem onLine_of_lt {z : Int} (h : -limit < z ∧ z < limit) :
    onLine z = ((z : WithTop Int) : WithBot (WithTop Int)) := by
  rw [onLine, if_neg (by omega), if_neg (by omega)]

theorem onLine_lt {z z' : Int} (h : z < z') (hz : z < limit) (hz' : -limit < z') :
    onLine z < onLine z' := by
  have := limit_pos
  unfold onLine
  split_ifs <;> try omega
  · exact WithBot.bot_lt_coe _
  · exact WithBot.bot_lt_coe _
  · exact WithBot.coe_lt_coe.2 (WithTop.coe_lt_top _)
  · exact WithBot.coe_lt_coe.2 (WithTop.coe_lt_coe.2 h)

theorem onLine_mono {z z' : Int} (h : z ≤ z') : onLine z ≤ onLine z' := by
  have := limit_pos
  unfold onLine
  split_ifs <;> try omega
  · exact le_rfl
  · exact bot_le
  · exact bot_le
  · exact bot_le
  · exact le_top
  · exact WithBot.coe_le_coe.2 (WithTop.coe_le_coe.2 h)

theorem spot_range {x : Float} (h : x.isNaN = false) : -limit ≤ spot x ∧ spot x ≤ limit := by
  have := limit_pos
  rcases finite_or_infinite h with hfin | hinf | hinf
  · have := abs_spot_lt hfin
    omega
  · simp only [spot_infinite hinf, Sign.apply]
    omega
  · simp only [spot_infinite hinf, Sign.apply]
    omega

theorem compare_onLine {x y : Float} (hx : x.isNaN = false) (hy : y.isNaN = false) :
    compare (onLine (spot x)) (onLine (spot y)) = compare (spot x) (spot y) := by
  have hrx := spot_range hx
  have hry := spot_range hy
  rcases lt_trichotomy (spot x) (spot y) with h | h | h
  · rw [compare_lt_iff_lt.2 (onLine_lt h (by omega) (by omega)), compare_lt_iff_lt.2 h]
  · rw [h, compare_eq_iff_eq.2 rfl, compare_eq_iff_eq.2 rfl]
  · rw [compare_gt_iff_gt.2 (onLine_lt h (by omega) (by omega)), compare_gt_iff_gt.2 h]

theorem compare_coe (a b : Int) :
    compare ((a : WithTop Int) : WithBot (WithTop Int))
      ((b : WithTop Int) : WithBot (WithTop Int)) = compare a b := by
  rcases lt_trichotomy a b with h | rfl | h
  · rw [compare_lt_iff_lt.2 h, compare_lt_iff_lt]
    exact_mod_cast h
  · rw [compare_eq_iff_eq.2 rfl, compare_eq_iff_eq.2 rfl]
  · rw [compare_gt_iff_gt.2 h, compare_gt_iff_gt]
    exact_mod_cast h

theorem compare_mul {k : Nat} (h : 0 < k) (a b : Int) : compare (a * k) (b * k) = compare a b := by
  have hk : (0 : Int) < k := by omega
  rcases lt_trichotomy a b with h | rfl | h
  · rw [compare_lt_iff_lt.2 h, compare_lt_iff_lt.2 (mul_lt_mul_of_pos_right h hk)]
  · rw [compare_eq_iff_eq.2 rfl, compare_eq_iff_eq.2 rfl]
  · rw [compare_gt_iff_gt.2 h, compare_gt_iff_gt.2 (mul_lt_mul_of_pos_right h hk)]

theorem unity_pos : 0 < unity := Nat.two_pow_pos _

theorem num_mul_unity (s : Sign) {m : Nat} {e : Int} (hm : 0 < m) (he : -1074 ≤ e) :
    (Scaled.mk (s.apply m) e).num * unity =
      units (.finite s m e hm) * (Scaled.mk (s.apply m) e).den := by
  have hpow : 2 ^ e.toNat * 2 ^ depth = 2 ^ (e + 1074).toNat * 2 ^ (-e).toNat := by
    rw [← Nat.pow_add, ← Nat.pow_add]
    congr 1
    unfold depth
    omega
  have hcast : ((Nat.pow 2 e.toNat * unity : Nat) : Int) =
      ((2 ^ (e + 1074).toNat * 2 ^ (-e).toNat : Nat) : Int) := congrArg _ hpow
  have happly : units (.finite s m e hm) = s.apply m * (2 ^ (e + 1074).toNat : Nat) := by
    cases s <;> simp [units, Sign.apply]
  rw [happly]
  simp only [Scaled.num, Scaled.den]
  rw [mul_assoc, ← Nat.cast_mul, hcast, Nat.cast_mul, mul_assoc]
  rfl

theorem exists_value {x : Float} (h : x.isFinite) :
    ∃ v, Scaled.ofFloat? x = some v ∧ 0 < v.den ∧ v.num * unity = spot x * v.den := by
  have hc := counts h
  have hfin := hc.finite
  unfold Scaled.ofFloat?
  cases hu : x.toModel.unpack with
  | notANumber | infinity s => simp [hu, UnpackedFloat.isFinite] at hfin
  | zero s =>
    refine ⟨⟨0, 0⟩, rfl, Nat.two_pow_pos _, ?_⟩
    have hzero : spot x = 0 := by rw [spot, hu]; rfl
    rw [hzero, Scaled.num, zero_mul, zero_mul, zero_mul]
  | finite s m e hm =>
    refine ⟨⟨s.apply m, e⟩, rfl, Nat.two_pow_pos _, ?_⟩
    rw [hu] at hc
    rw [num_mul_unity s hm hc.canonical.2.1, hc.units_eq]

end Grid

namespace Number
open Grid

def rank : Number → WithBot (WithTop Int)
  | .int n => (((n * unity : Int) : WithTop Int) : WithBot (WithTop Int))
  | .float x => onLine (spot x)

theorem compareIntFloat_eq (n : Int) {x : Float} (hx : x.isNaN = false) :
    compareIntFloat n x = some (compare (rank (.int n)) (rank (.float x))) := by
  rcases finite_or_infinite hx with hfin | hinf | hinf
  · have hrank : rank (.float x) = ((spot x : WithTop Int) : WithBot (WithTop Int)) :=
      onLine_of_lt (abs_spot_lt hfin)
    obtain ⟨v, hv, hden, hunits⟩ := exists_value hfin
    have hvalue : compareIntFloat n x = some (compare (n * v.den) v.num) := by
      rw [compareIntFloat, hv]
      have hf := (counts hfin).finite
      cases hu : x.toModel.unpack <;> first | rfl | simp [hu, UnpackedFloat.isFinite] at hf
    -- Both sides in units, times the denominator of the float.
    rw [hvalue, hrank, rank, compare_coe, ← compare_mul unity_pos (n * v.den), hunits,
      ← compare_mul hden (n * unity), mul_right_comm]
  · have hrank : rank (.float x) = ⊤ := by
      rw [rank, spot_infinite hinf]
      exact onLine_limit
    rw [compareIntFloat, hinf, hrank, compare_lt_iff_lt.2]
    exact WithBot.coe_lt_coe.2 (WithTop.coe_lt_top _)
  · have hrank : rank (.float x) = ⊥ := by
      rw [rank, spot_infinite hinf]
      exact onLine_neg_limit
    rw [compareIntFloat, hinf, hrank, compare_gt_iff_gt.2]
    exact WithBot.bot_lt_coe _

theorem order?_eq {a b : Number} (ha : a.isNaN = false) (hb : b.isNaN = false) :
    a.order? b = some (compare a.rank b.rank) := by
  cases a with
  | int n =>
    cases b with
    | int n' => rw [order?, rank, rank, compare_coe, compare_mul unity_pos]
    | float y => exact compareIntFloat_eq n hb
  | float x =>
    cases b with
    | int n' =>
      rw [order?, compareIntFloat_eq n' ha, Option.map_some, ← Std.OrientedCmp.eq_swap]
    | float y =>
      have hlt := lt_iff ha hb
      have hgt := lt_iff hb ha
      have heq := beq_iff ha hb
      rw [order?, rank, rank, compare_onLine ha hb]
      rcases lt_trichotomy (spot x) (spot y) with h | h | h
      · rw [if_pos (hlt.2 h), Int.compare_eq_lt.2 h]
      · rw [if_neg (mt hlt.1 (by omega)), if_neg (mt hgt.1 (by omega)), if_pos (heq.2 h),
          Int.compare_eq_eq.2 h]
      · rw [if_neg (mt hlt.1 (by omega)), if_pos (hgt.2 h), Int.compare_eq_gt.2 h]

theorem compareIntFloat_nan (n : Int) {x : Float} (h : x.isNaN) : compareIntFloat n x = none := by
  have hx : x.toModel.unpack.isNaN = true := h
  unfold compareIntFloat
  cases hu : x.toModel.unpack <;> simp_all [UnpackedFloat.isNaN]

theorem order?_eq_none {a b : Number} (h : a.isNaN ∨ b.isNaN) : a.order? b = none := by
  cases a with
  | int n =>
    cases b with
    | int n' => simp [isNaN] at h
    | float y => exact compareIntFloat_nan n (h.resolve_left (by simp [isNaN]))
  | float x =>
    cases b with
    | int n' => rw [order?, compareIntFloat_nan n' (h.resolve_right (by simp [isNaN]))]; rfl
    | float y =>
      rw [order?, if_neg (not_lt_of_nan h), if_neg (not_lt_of_nan h.symm),
        if_neg (not_beq_of_nan h)]

theorem notNaN_of_order? {a b : Number} {o : Ordering} (h : a.order? b = some o) :
    a.isNaN = false ∧ b.isNaN = false := by
  by_contra hnan
  rw [order?_eq_none] at h
  · cases h
  · rw [not_and_or, Bool.not_eq_false, Bool.not_eq_false] at hnan
    exact hnan

theorem lt_iff_rank {a b : Number} (ha : a.isNaN = false) (hb : b.isNaN = false) :
    a.lt b ↔ a.rank < b.rank := by
  rw [lt, order?_eq ha hb, beq_iff_eq, Option.some.injEq, compare_lt_iff_lt]

theorem le_iff_rank {a b : Number} (ha : a.isNaN = false) (hb : b.isNaN = false) :
    a.le b ↔ a.rank ≤ b.rank := by
  rw [le, order?_eq ha hb, Bool.or_eq_true, beq_iff_eq, beq_iff_eq, Option.some.injEq,
    Option.some.injEq, compare_lt_iff_lt, compare_eq_iff_eq, ← le_iff_lt_or_eq]

theorem equal_iff_rank {a b : Number} (ha : a.isNaN = false) (hb : b.isNaN = false) :
    a.equal b ↔ a.rank = b.rank := by
  rw [equal, order?_eq ha hb, beq_iff_eq, Option.some.injEq, compare_eq_iff_eq]

theorem notNaN_of_lt {a b : Number} (h : a.lt b) : a.isNaN = false ∧ b.isNaN = false :=
  notNaN_of_order? (beq_iff_eq.1 h)

theorem lt_trans {a b c : Number} (hab : a.lt b) (hbc : b.lt c) : a.lt c := by
  obtain ⟨ha, hb⟩ := notNaN_of_lt hab
  obtain ⟨-, hc⟩ := notNaN_of_lt hbc
  rw [lt_iff_rank ha hb] at hab
  rw [lt_iff_rank hb hc] at hbc
  exact (lt_iff_rank ha hc).2 (hab.trans hbc)

theorem lt_asymm {a b : Number} (hab : a.lt b) : ¬ b.lt a := by
  obtain ⟨ha, hb⟩ := notNaN_of_lt hab
  rw [lt_iff_rank ha hb] at hab
  rw [lt_iff_rank hb ha]
  exact hab.asymm

theorem le_of_lt {a b : Number} (h : a.lt b) : a.le b := by
  rw [le, Bool.or_eq_true]
  exact Or.inl h

theorem le_refl {a : Number} (h : a.isNaN = false) : a.le a := (le_iff_rank h h).2 le_rfl

theorem notNaN_of_le {a b : Number} (h : a.le b) : a.isNaN = false ∧ b.isNaN = false := by
  rw [le, Bool.or_eq_true] at h
  rcases h with h | h <;> exact notNaN_of_order? (beq_iff_eq.1 h)

theorem le_trans {a b c : Number} (hab : a.le b) (hbc : b.le c) : a.le c := by
  obtain ⟨ha, hb⟩ := notNaN_of_le hab
  obtain ⟨-, hc⟩ := notNaN_of_le hbc
  rw [le_iff_rank ha hb] at hab
  rw [le_iff_rank hb hc] at hbc
  exact (le_iff_rank ha hc).2 (hab.trans hbc)

theorem lt_of_le_of_lt {a b c : Number} (hab : a.le b) (hbc : b.lt c) : a.lt c := by
  obtain ⟨ha, hb⟩ := notNaN_of_le hab
  obtain ⟨-, hc⟩ := notNaN_of_lt hbc
  rw [le_iff_rank ha hb] at hab
  rw [lt_iff_rank hb hc] at hbc
  exact (lt_iff_rank ha hc).2 (hab.trans_lt hbc)

theorem not_lt_of_le {a b : Number} (h : a.le b) : ¬ b.lt a := fun hlt => by
  have := lt_of_le_of_lt h hlt
  exact lt_asymm this this

theorem le_of_not_lt {a b : Number} (ha : a.isNaN = false) (hb : b.isNaN = false)
    (h : ¬ a.lt b) : b.le a := by
  rw [lt_iff_rank ha hb, not_lt] at h
  exact (le_iff_rank hb ha).2 h

theorem float_le {x y : Float} (h : x ≤ y) : (Number.float x).le (.float y) := by
  obtain ⟨hx, hy⟩ := Grid.notNaN_of_le h
  rw [Grid.le_iff hx hy] at h
  exact (le_iff_rank (a := .float x) (b := .float y) hx hy).2 (onLine_mono h)

theorem float_trans {x y z : Float} (hxy : x ≤ y) (hyz : y ≤ z) : x ≤ z := by
  obtain ⟨hx, hy⟩ := Grid.notNaN_of_le hxy
  obtain ⟨-, hz⟩ := Grid.notNaN_of_le hyz
  rw [Grid.le_iff hx hy] at hxy
  rw [Grid.le_iff hy hz] at hyz
  exact (Grid.le_iff hx hz).2 (hxy.trans hyz)

theorem isZero_of_isPositive {a : Number} (h : a.isPositive) : a.isZero = false := by
  obtain ⟨hzero, ha⟩ := notNaN_of_lt h
  rw [Bool.eq_false_iff, ne_eq, isZero, equal_iff_rank ha hzero]
  exact ((lt_iff_rank hzero ha).1 h).ne'

/-! ### Values held between bounds -/

theorem clamp_clamp (lo hi value : Number) :
    clamp lo hi (clamp lo hi value) = clamp lo hi value := by
  unfold clamp max min
  split_ifs <;> rfl

theorem notNaN_of_clamp {lo hi value : Number} (hlo : lo.isNaN = false) :
    (clamp lo hi value).isNaN = false := by
  unfold clamp max
  split_ifs with h
  · exact (notNaN_of_lt h).2
  · exact hlo

theorem between_of_clamp {lo hi n : Number} (h : clamp lo hi n = n) (hlo : lo.isNaN = false)
    (hhi : hi.isNaN = false) (hle : lo.le hi) : lo.le n ∧ n.le hi := by
  unfold clamp max min at h
  split_ifs at h with h1 h2 h2
  · exact ⟨le_of_lt h2, le_of_lt h1⟩
  · subst h
    exact ⟨le_refl hlo, hle⟩
  · subst h
    exact ⟨le_of_lt h2, le_refl hhi⟩
  · subst h
    exact ⟨le_refl hlo, hle⟩

theorem eq_of_clamp {lo hi n : Number} (h : clamp lo hi n = n) (hlt : hi.lt lo) : n = lo := by
  unfold clamp max min at h
  split_ifs at h with h1 h2 h2
  · exact absurd (lt_trans h2 h1) (lt_asymm hlt)
  · exact h.symm
  · exact absurd h2 (lt_asymm hlt)
  · exact h.symm

end Number
end Gameroom
