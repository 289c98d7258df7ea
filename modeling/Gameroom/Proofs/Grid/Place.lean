import Gameroom.Proofs.Grid.Rounding

/-!
Floats stand on a line of whole numbers, in units of the least positive float. The infinities stand
where the first power of two would stand that no finite float reaches.
-/

open Float.Model (Format UnpackedFloat totalExponent)
open Float.Model.UnpackedFloat

namespace Gameroom.Grid

/-- The exponent of the least power of two by which no finite float is more than 53 bits. -/
def beyond : Nat := 2045

/-- The units of the first power of two that no finite float reaches. -/
def limit : Nat := 2 ^ 53 * 2 ^ beyond

def place : UnpackedFloat → Int
  | .infinity s => s.apply limit
  | u => units u

/-- A count of units held within the line. -/
def bounded (z : Int) : Int := max (-limit) (min limit z)

theorem limit_pos : 0 < limit := Nat.mul_pos (Nat.two_pow_pos _) (Nat.two_pow_pos _)

theorem bounded_mono {z z' : Int} (h : z ≤ z') : bounded z ≤ bounded z' := by
  unfold bounded
  omega

theorem carry (k : Nat) : 2 ^ 53 * 2 ^ k = 2 ^ 52 * 2 ^ (k + 1) := by ring

theorem lt_limit {m : Nat} {e : Int} (hm : m < 2 ^ 53) (he : e ≤ 971) :
    m * 2 ^ (e + 1074).toNat < limit :=
  calc m * 2 ^ (e + 1074).toNat < 2 ^ 53 * 2 ^ (e + 1074).toNat :=
        Nat.mul_lt_mul_of_pos_right hm (Nat.two_pow_pos _)
    _ ≤ limit := Nat.mul_le_mul_left _ (Nat.pow_le_pow_right Nat.two_pos (by unfold beyond; omega))

theorem limit_le {m : Nat} {e : Int} (hm : 2 ^ 52 ≤ m) (he : 972 ≤ e) :
    limit ≤ m * 2 ^ (e + 1074).toNat :=
  calc limit = 2 ^ 52 * 2 ^ (beyond + 1) := carry _
    _ ≤ m * 2 ^ (beyond + 1) := Nat.mul_le_mul_right _ hm
    _ ≤ m * 2 ^ (e + 1074).toNat :=
        Nat.mul_le_mul_left _ (Nat.pow_le_pow_right Nat.two_pos (by unfold beyond; omega))

theorem place_fitted {u : UnpackedFloat} {z : Int} (hz : Counts u z) :
    place (fitted u) = bounded z := by
  have hpos := limit_pos
  obtain ⟨h, hfin, rfl⟩ := hz
  cases u with
  | notANumber | infinity s => simp [isFinite] at hfin
  | zero s =>
    simp only [fitted, place, units, bounded]
    omega
  | finite s m e hm =>
    obtain ⟨h53, he, hlow⟩ := h
    by_cases hbig : e ≤ 971
    · have hlt := lt_limit h53 hbig
      rw [fitted, if_pos hbig, bounded]
      cases s <;> simp only [place, units, Sign.apply] <;> omega
    · have hle := limit_le (hlow.resolve_right (by omega)) (by omega : 972 ≤ e)
      rw [fitted, if_neg hbig, bounded]
      cases s <;> simp only [place, units, Sign.apply] <;> omega

/-! ### Order -/

theorem units_lt_of_exponent_lt {m m' : Nat} {e e' : Int} (hm : m < 2 ^ 53) (he : -1074 ≤ e)
    (hm' : 2 ^ 52 ≤ m') (h : e < e') :
    m * 2 ^ (e + 1074).toNat < m' * 2 ^ (e' + 1074).toNat := by
  obtain ⟨j, hj⟩ : ∃ j, (e' + 1074).toNat = (e + 1074).toNat + 1 + j :=
    ⟨(e' - e - 1).toNat, by omega⟩
  calc m * 2 ^ (e + 1074).toNat < 2 ^ 53 * 2 ^ (e + 1074).toNat :=
        Nat.mul_lt_mul_of_pos_right hm (Nat.two_pow_pos _)
    _ = 2 ^ 52 * 2 ^ ((e + 1074).toNat + 1) := carry _
    _ ≤ m' * 2 ^ ((e + 1074).toNat + 1) := Nat.mul_le_mul_right _ hm'
    _ ≤ m' * 2 ^ (e' + 1074).toNat := by
        rw [hj]
        exact Nat.mul_le_mul_left _ (Nat.pow_le_pow_right Nat.two_pos (by omega))

theorem compare_mantissas {s s' : Sign} {m m' : Nat} {e e' : Int} {h : 0 < m} {h' : 0 < m'}
    (hc : Canonical (.finite s m e h)) (hc' : Canonical (.finite s' m' e' h')) :
    (compare e e').then (compare m m') =
      compare (m * 2 ^ (e + 1074).toNat) (m' * 2 ^ (e' + 1074).toNat) := by
  obtain ⟨h53, he, hlow⟩ := hc
  obtain ⟨h53', he', hlow'⟩ := hc'
  rcases lt_trichotomy e e' with hlt | rfl | hgt
  · rw [Int.compare_eq_lt.2 hlt, Nat.compare_eq_lt.2
      (units_lt_of_exponent_lt h53 he (hlow'.resolve_right (by omega)) hlt)]
    rfl
  · have hpos := Nat.two_pow_pos (e + 1074).toNat
    rw [Int.compare_eq_eq.2 rfl, Ordering.eq_then]
    rcases lt_trichotomy m m' with hm | rfl | hm
    · rw [Nat.compare_eq_lt.2 hm, Nat.compare_eq_lt.2 (Nat.mul_lt_mul_of_pos_right hm hpos)]
    · rw [Nat.compare_eq_eq.2 rfl, Nat.compare_eq_eq.2 rfl]
    · rw [Nat.compare_eq_gt.2 hm, Nat.compare_eq_gt.2 (Nat.mul_lt_mul_of_pos_right hm hpos)]
  · rw [Int.compare_eq_gt.2 hgt, Nat.compare_eq_gt.2
      (units_lt_of_exponent_lt h53' he' (hlow.resolve_right (by omega)) hgt)]
    rfl

/-- What a float is unpacked to, not beyond the range of floats. -/
def Fits (u : UnpackedFloat) : Prop := Canonical u ∧ fitted u = u

theorem fits_unpack (b : BitVec Format.binary64.numBits) : Fits (unpack .binary64 b) :=
  ⟨canonical_unpack b, fitted_unpack b⟩

theorem Fits.lt_limit {s : Sign} {m : Nat} {e : Int} {h : 0 < m} (hu : Fits (.finite s m e h)) :
    m * 2 ^ (e + 1074).toNat < limit := by
  obtain ⟨⟨h53, he, -⟩, hfit⟩ := hu
  refine Grid.lt_limit h53 ?_
  by_contra hbig
  rw [fitted, if_neg hbig] at hfit
  cases hfit

theorem compare_neg (a b : Int) : compare (-a) (-b) = (compare a b).swap := by
  rcases lt_trichotomy a b with h | rfl | h
  · rw [Int.compare_eq_lt.2 h, Int.compare_eq_gt.2 (by omega)]
    rfl
  · rw [Int.compare_eq_eq.2 rfl, Int.compare_eq_eq.2 rfl]
    rfl
  · rw [Int.compare_eq_gt.2 h, Int.compare_eq_lt.2 (by omega)]
    rfl

theorem compare_natCast (a b : Nat) : compare (a : Int) b = compare a b := by
  rcases lt_trichotomy a b with h | rfl | h
  · rw [Nat.compare_eq_lt.2 h, Int.compare_eq_lt.2 (by omega)]
  · rw [Nat.compare_eq_eq.2 rfl, Int.compare_eq_eq.2 rfl]
  · rw [Nat.compare_eq_gt.2 h, Int.compare_eq_gt.2 (by omega)]

theorem compare_eq {u v : UnpackedFloat} (hu : Fits u) (hv : Fits v)
    (hnu : u ≠ .notANumber) (hnv : v ≠ .notANumber) :
    u.compare v = some (compare (place u) (place v)) := by
  have hpos := limit_pos
  have hmag {m : Nat} (e : Int) (h : 0 < m) : 0 < m * 2 ^ (e + 1074).toNat :=
    Nat.mul_pos h (Nat.two_pow_pos _)
  rcases u with s | _ | s | ⟨s, m, e, hm⟩ <;> rcases v with s' | _ | s' | ⟨s', m', e', hm'⟩
  all_goals try exact absurd rfl hnu
  all_goals try exact absurd rfl hnv
  -- Only here magnitudes are compared; elsewhere signs or the ends of the line decide.
  case finite.finite =>
    have hmant := compare_mantissas hu.1 hv.1
    have h := hmag e hm
    have h' := hmag e' hm'
    cases s <;> cases s' <;>
      simp only [UnpackedFloat.compare, place, units, Sign.apply, Option.some.injEq]
    · rw [hmant, compare_neg, compare_natCast]
    · exact (Int.compare_eq_lt.2 (by omega)).symm
    · exact (Int.compare_eq_gt.2 (by omega)).symm
    · rw [hmant, compare_natCast]
  case finite.infinity | finite.zero =>
    have h := hmag e hm
    have hlt := hu.lt_limit
    cases s <;> cases s' <;>
      simp only [UnpackedFloat.compare, place, units, Sign.apply, Option.some.injEq] <;>
      symm <;> first | exact Int.compare_eq_lt.2 (by omega) | exact Int.compare_eq_gt.2 (by omega)
  case infinity.finite | zero.finite =>
    have h := hmag e' hm'
    have hlt := hv.lt_limit
    cases s <;> cases s' <;>
      simp only [UnpackedFloat.compare, place, units, Sign.apply, Option.some.injEq] <;>
      symm <;> first | exact Int.compare_eq_lt.2 (by omega) | exact Int.compare_eq_gt.2 (by omega)
  all_goals
    cases s <;> cases s' <;>
      simp only [UnpackedFloat.compare, place, units, Sign.apply, Option.some.injEq] <;>
      symm <;> first
        | exact Int.compare_eq_lt.2 (by omega)
        | exact Int.compare_eq_gt.2 (by omega)
        | exact Int.compare_eq_eq.2 rfl

end Gameroom.Grid
