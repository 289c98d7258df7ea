import Gameroom.Proofs.Number.Exact

/-!
How far whole numbers are apart, told by their floats. The distance of two floats that stand for
whole numbers is that of any two others that are as far apart.
-/

open Float.Model (Format UnpackedFloat)
open Float.Model.UnpackedFloat

namespace Gameroom

namespace Grid

theorem sub_self_unpacked {u : UnpackedFloat} (h : u.isFinite) :
    UnpackedFloat.sub .binary64 u u = .zero .positive := by
  cases u with
  | notANumber | infinity s => cases h
  | zero s => cases s <;> rfl
  | finite s m e hm =>
    simp only [UnpackedFloat.sub, Int.sub_self, UnpackedFloat.normalize]
    rfl

theorem sub_self_float {x : Float} (h : x.isFinite) : x - x = 0 :=
  congrArg (fun u => Float.ofModel (.pack u)) (sub_self_unpacked h)

end Grid

def Exact (n : Int) : Prop := IsWhole (floatOfInt n) n

namespace Exact
open Grid
variable {a b : Int}

theorem of_le (h : a.natAbs ≤ 2 ^ 53) : Exact a := IsWhole.ofInt h

theorem sub_shifted {d : Int} (ha : Exact a) (hb : Exact b) (ha' : Exact (a + d))
    (hb' : Exact (b + d)) :
    floatOfInt (a + d) - floatOfInt (b + d) = floatOfInt a - floatOfInt b := by
  rcases eq_or_ne a b with rfl | hne
  · rw [sub_self_float ha.finite, sub_self_float ha'.finite]
  · have hcounts := sub_eq (counts ha.finite) (counts hb.finite)
    have hcounts' := sub_eq (counts ha'.finite) (counts hb'.finite)
    rw [ha.spot, hb.spot, ← sub_mul] at hcounts
    rw [ha'.spot, hb'.spot, ← sub_mul, add_sub_add_right_eq_sub] at hcounts'
    have hdistance : roundedInt ((a - b) * unity) ≠ 0 := by
      have hpos := unity_pos
      rw [Ne, roundedInt_eq_zero, mul_eq_zero]
      omega
    exact congrArg (fun u => Float.ofModel (.pack u)) (eq_of_counts hcounts' hcounts hdistance)

theorem add_neg_unpacked (ha : Exact a) (hb : Exact b) (h : a + b = 0) :
    UnpackedFloat.add .binary64 (floatOfInt a).toModel.unpack (floatOfInt b).toModel.unpack =
      .zero .positive := by
  rcases eq_or_ne a 0 with rfl | hne
  · obtain rfl : b = 0 := by omega
    rfl
  · have hcounts := counts ha.finite
    have hcounts' := counts_neg (counts hb.finite)
    have hunits : -spot (floatOfInt b) = spot (floatOfInt a) := by
      rw [ha.spot, hb.spot, ← neg_mul, show -b = a by omega]
    rw [hunits] at hcounts'
    have hspot : spot (floatOfInt a) ≠ 0 := spot_floatOfInt_eq_zero.not.2 hne
    rw [add_eq_sub, eq_of_counts hcounts' hcounts hspot]
    exact sub_self_unpacked hcounts.finite

theorem add (ha : Exact a) (hb : Exact b) : floatOfInt a + floatOfInt b = floatOfInt (a + b) := by
  have hsum : UnpackedFloat.add .binary64 (floatOfInt a).toModel.unpack
      (floatOfInt b).toModel.unpack = UnpackedFloat.ofInt .binary64 (a + b) := by
    have hcounts := add_eq (counts ha.finite) (counts hb.finite)
    rw [ha.spot, hb.spot, ← add_mul] at hcounts
    rcases eq_or_ne (a + b) 0 with hzero | hne
    · rw [add_neg_unpacked ha hb hzero, hzero]
      rfl
    · refine eq_of_counts hcounts (ofInt_counts (a + b)) ?_
      have hpos := unity_pos
      rw [Ne, roundedInt_eq_zero, mul_eq_zero]
      omega
  exact congrArg (fun u => Float.ofModel (.pack u)) hsum

end Exact
end Gameroom
