import Gameroom.Proofs.Grid.Product
import Gameroom.Proofs.State.Typed

/-!
Samples from 0 up to, but not including, 1. A generator gives no others, and what is stretched over
a range of whole numbers lies between its ends.
-/

open Float.Model (Format UnpackedFloat)
open Float.Model.UnpackedFloat

namespace Gameroom

namespace Number
open Grid
variable {x : Float} {a b : Int}

theorem int_le_float (hx : x.isFinite) (a : Int) :
    (Number.int a).le (.float x) ↔ a * unity ≤ spot x := by
  rw [le_iff_rank rfl (show (Number.float x).isNaN = false from notNaN_of_finite hx), rank, rank,
    onLine_of_lt (abs_spot_lt hx), WithBot.coe_le_coe, WithTop.coe_le_coe]

theorem float_le_int (hx : x.isFinite) (b : Int) :
    (Number.float x).le (.int b) ↔ spot x ≤ b * unity := by
  rw [le_iff_rank (show (Number.float x).isNaN = false from notNaN_of_finite hx) rfl, rank, rank,
    onLine_of_lt (abs_spot_lt hx), WithBot.coe_le_coe, WithTop.coe_le_coe]

theorem float_lt_int (hx : x.isFinite) (b : Int) :
    (Number.float x).lt (.int b) ↔ spot x < b * unity := by
  rw [lt_iff_rank (show (Number.float x).isNaN = false from notNaN_of_finite hx) rfl, rank, rank,
    onLine_of_lt (abs_spot_lt hx), WithBot.coe_lt_coe, WithTop.coe_lt_coe]

theorem int_le_int : (Number.int a).le (.int b) ↔ a ≤ b := by
  rw [le, order?, Bool.or_eq_true, beq_iff_eq, beq_iff_eq, Option.some.injEq, Option.some.injEq,
    compare_lt_iff_lt, compare_eq_iff_eq, ← le_iff_lt_or_eq]

theorem int_lt_int : (Number.int a).lt (.int b) ↔ a < b := by
  rw [lt, order?, beq_iff_eq, Option.some.injEq, compare_lt_iff_lt]

theorem finite_of_between (hlow : (Number.int a).le (.float x))
    (hhigh : (Number.float x).le (.int b)) : x.isFinite := by
  have hx : (Number.float x).isNaN = false := (notNaN_of_le hlow).2
  rw [le_iff_rank rfl hx] at hlow
  rw [le_iff_rank hx rfl] at hhigh
  rcases finite_or_infinite hx with hfin | hinf | hinf
  · exact hfin
  · rw [rank.eq_2, spot_infinite hinf] at hhigh
    rw [show Sign.positive.apply limit = limit from rfl, onLine_limit] at hhigh
    exact absurd hhigh (WithBot.coe_lt_coe.2 (WithTop.coe_lt_top _)).not_ge
  · rw [rank.eq_2, spot_infinite hinf] at hlow
    rw [show Sign.negative.apply limit = -limit from rfl, onLine_neg_limit] at hlow
    exact absurd hlow (WithBot.bot_lt_coe _).not_ge

/-- A number from 0 up to, but not including, 1. -/
def InUnit (x : Number) : Prop := (Number.int 0).le x ∧ x.lt (.int 1)

instance : DecidablePred InUnit := fun x =>
  inferInstanceAs (Decidable ((Number.int 0).le x ∧ x.lt (.int 1)))

theorem inUnit_float : (Number.float x).InUnit ↔ x.isFinite ∧ 0 ≤ spot x ∧ spot x < unity := by
  constructor
  · rintro ⟨hlow, hhigh⟩
    have hx := finite_of_between hlow (le_of_lt hhigh)
    rw [int_le_float hx, zero_mul] at hlow
    rw [float_lt_int hx, one_mul] at hhigh
    exact ⟨hx, hlow, hhigh⟩
  · rintro ⟨hx, hlow, hhigh⟩
    exact ⟨(int_le_float hx 0).2 (by rwa [zero_mul]), (float_lt_int hx 1).2 (by rwa [one_mul])⟩

theorem InUnit.eq_zero (h : (Number.int a).InUnit) : a = 0 := by
  have hlow := int_le_int.1 h.1
  have hhigh := int_lt_int.1 h.2
  omega

end Number

theorem Twister.sample_inUnit (t : Twister) : (Number.float t.sample.1).InUnit := by
  have hhigh : (t.next.1 >>> 5).toNat < 2 ^ 27 := by
    have := t.next.1.toNat_lt
    rw [UInt32.toNat_shiftRight, Nat.shiftRight_eq_div_pow]
    change t.next.1.toNat / 2 ^ 5 < 2 ^ 27
    omega
  have hlow : (t.next.2.next.1 >>> 6).toNat < 2 ^ 26 := by
    have := t.next.2.next.1.toNat_lt
    rw [UInt32.toNat_shiftRight, Nat.shiftRight_eq_div_pow]
    change t.next.2.next.1.toNat / 2 ^ 6 < 2 ^ 26
    omega
  generalize hm : (t.next.1 >>> 5).toNat = m at hhigh
  generalize hn : (t.next.2.next.1 >>> 6).toNat = n at hlow
  have hwhole (u : UInt32) : IsWhole u.toFloat u.toNat :=
    IsWhole.ofInt (n := u.toNat) (u.toNat_lt.le.trans (by decide))
  have hscale : IsWhole 67108864.0 (67108864 : Nat) := by
    have h := IsWhole.ofInt (n := 67108864) (by decide)
    have heq : floatOfInt 67108864 = 67108864.0 := by decide +kernel
    rwa [heq] at h
  have hproduct := (hm ▸ hwhole (t.next.1 >>> 5)).mul hscale (by omega)
  have hsum := hproduct.add (hn ▸ hwhole (t.next.2.next.1 >>> 6)) (by omega)
  rw [← Nat.cast_add] at hsum
  exact Number.inUnit_float.2 (hsum.div_pow (by omega))

namespace Source
open Grid
variable {source source' : Source} {x : Number}

/-- A source whose samples are from 0 up to, but not including, 1. -/
def InUnit (source : Source) : Prop :=
  ∀ samples, source.given? = some samples → ∀ x ∈ samples, x.InUnit

theorem SameGiven.inUnit (h : SameGiven source source') (hs : source.InUnit) : source'.InUnit :=
  fun samples hsamples => hs samples (h ▸ hsamples)

theorem sample_inUnit (hs : source.InUnit) (h : source.sample = .ok (x, source')) : x.InUnit :=
  sample_forall (fun t => t.sample_inUnit) hs h

theorem mul_inUnit {y : Float} {width : Nat} (hwidth : width ≤ 2 ^ 53)
    (hy : (Number.float y).InUnit) :
    (floatOfInt width * y).isFinite ∧ 0 ≤ spot (floatOfInt width * y) ∧
      spot (floatOfInt width * y) ≤ width * unity := by
  have hwhole : IsWhole (floatOfInt width) width := .ofInt hwidth
  obtain ⟨hfin, hlow, hhigh⟩ := Number.inUnit_float.1 hy
  have hspot : 0 ≤ spot (floatOfInt width) :=
    hwhole.spot ▸ mul_nonneg (Int.natCast_nonneg _) (Int.natCast_nonneg _)
  have h := spot_mul_le hwhole.finite hspot hfin hlow hhigh
  rwa [hwhole.spot] at h

theorem add_between {y : Float} {low high : Int} (hlow : low.natAbs ≤ 2 ^ 53)
    (hhigh : high.natAbs ≤ 2 ^ 53) (hy : y.isFinite) (hnonneg : 0 ≤ spot y)
    (hle : spot y ≤ (high - low) * unity) :
    (Number.int low).le (.float (floatOfInt low + y)) ∧
      (Number.float (floatOfInt low + y)).le (.int high) := by
  have hwhole : IsWhole (floatOfInt low) low := .ofInt hlow
  have hcounts := add_eq (counts hwhole.finite) (counts hy)
  have hrounded : low * unity ≤ roundedInt (spot (floatOfInt low) + spot y) ∧
      roundedInt (spot (floatOfInt low) + spot y) ≤ high * unity := by
    rw [hwhole.spot, ← roundedInt_exact hlow, ← roundedInt_exact hhigh]
    exact ⟨roundedInt_mono (by rw [roundedInt_exact hlow]; omega),
      roundedInt_mono (by rw [roundedInt_exact hlow]; linarith)⟩
  have hlim : (roundedInt (spot (floatOfInt low) + spot y)).natAbs < limit := by
    have := whole_le_limit hlow
    have := whole_le_limit hhigh
    omega
  obtain ⟨hfin, hspot⟩ := spot_of_counts (x := floatOfInt low + y)
    (unpack_ofModel_pack hcounts.canonical) hcounts hlim
  rw [Number.int_le_float hfin, Number.float_le_int hfin, hspot]
  exact hrounded

theorem uniform_between {low high : Int} (hlow : low.natAbs ≤ 2 ^ 52) (hhigh : high.natAbs ≤ 2 ^ 52)
    (hle : low ≤ high) (hs : source.InUnit)
    (h : uniform (.int low) (.int high) source = .ok x source') :
    (Number.int low).le x ∧ x.le (.int high) := by
  obtain ⟨width, sample, product, hwidth, hsample, hproduct, hsum⟩ := uniform_ok h
  have hunit := sample_inUnit hs hsample
  obtain ⟨n, hn⟩ := Int.eq_ofNat_of_zero_le (sub_nonneg.2 hle)
  have hwhole (m : Int) (hm : m.natAbs ≤ 2 ^ 53) : (Number.int m).toFloat = .ok (floatOfInt m) :=
    if_pos (IsWhole.ofInt hm).finite
  obtain rfl : width = .int n := by
    rw [← hn]
    exact (Except.ok.inj hwidth).symm
  -- A whole number inside the unit is zero, which gives the lower bound.
  cases sample with
  | int a =>
    obtain rfl := hunit.eq_zero
    cases hproduct
    cases hsum
    dsimp only
    rw [mul_zero, add_zero]
    exact ⟨Number.int_le_int.2 le_rfl, Number.int_le_int.2 hle⟩
  | float y =>
    have hn53 : n ≤ 2 ^ 53 := by omega
    obtain ⟨hfin, hnonneg, hless⟩ := mul_inUnit hn53 hunit
    simp only [Number.mul, Number.arithmetic, hwhole n (by omega)] at hproduct
    cases hproduct
    simp only [Number.add, Number.arithmetic, hwhole low (by omega)] at hsum
    cases hsum
    have hless : spot (floatOfInt n * y) ≤ (high - low) * unity := hless.trans_eq (by rw [hn])
    exact add_between (by omega) (by omega) hfin hnonneg hless

end Source
end Gameroom
