import Gameroom.Proofs.Number.Exact
import Gameroom.Proofs.State.Traversal

/-! A generator samples numbers: its arithmetic never ends in no number. -/

open Float.Model (Format UnpackedFloat)
open Float.Model.UnpackedFloat

namespace Gameroom

namespace Grid
variable {x y : Float}

theorem unpack_pack_notNaN {u : UnpackedFloat} (h : u.isNaN = false) :
    (unpack .binary64 (pack .binary64 u)).isNaN = false := by
  fun_cases pack with
  | case1 => cases h
  | case2 s => simp [unpack, packedInfinity, UnpackedFloat.isNaN]
  | case3 s => cases s <;> rfl
  | case4 s m e hm biased hbig => simp [unpack, packedInfinity, UnpackedFloat.isNaN]
  | case5 s m e hm bits biased hsmall hnormal =>
    norm_num at hsmall
    have hexponent : BitVec.ofNat 11 biased ≠ -1#11 := ofNat_ne (by omega) (by simp; omega)
    simp only [unpack, unpackExponent_packComponents, hexponent, if_false]
    split_ifs <;> rfl
  | case6 s m e hm bits biased hsmall hsubnormal =>
    simp only [unpack, unpackExponent_packComponents]
    split_ifs <;> first | rfl | contradiction

theorem roundWithAccuracy_notNaN (s : Sign) (m : Nat) (e : Int) (a : Accuracy) :
    (roundWithAccuracy .binary64 s m e a).isNaN = false := by
  unfold roundWithAccuracy
  dsimp only
  split_ifs <;> rfl

theorem normalize_notNaN (m e : Int) (s : Sign) :
    (UnpackedFloat.normalize .binary64 m e s).isNaN = false := by
  unfold UnpackedFloat.normalize
  split
  · exact roundWithAccuracy_notNaN _ _ _ _
  · rfl
  · exact roundWithAccuracy_notNaN _ _ _ _

theorem unpack_of_finite (h : x.isFinite) : (∃ s, x.toModel.unpack = .zero s) ∨
    ∃ s m e hm, x.toModel.unpack = .finite s m e hm := by
  change x.toModel.unpack.isFinite = true at h
  cases hu : x.toModel.unpack with
  | notANumber | infinity =>
    rw [hu] at h
    cases h
  | zero s => exact .inl ⟨s, rfl⟩
  | finite s m e hm => exact .inr ⟨s, m, e, hm, rfl⟩

theorem mul_notNaN (hx : x.isFinite) (hy : y.isFinite) : (x * y).isNaN = false := by
  refine unpack_pack_notNaN (u := UnpackedFloat.mul .binary64 x.toModel.unpack y.toModel.unpack) ?_
  rcases unpack_of_finite hx with ⟨s, hu⟩ | ⟨s, m, e, hm, hu⟩ <;>
    rcases unpack_of_finite hy with ⟨s', hv⟩ | ⟨s', m', e', hm', hv⟩ <;> rw [hu, hv]
  case inr.inr => exact roundWithAccuracy_notNaN _ _ _ _
  all_goals rfl

theorem add_notNaN (hx : x.isNaN = false) (hy : y.isFinite) : (x + y).isNaN = false := by
  refine unpack_pack_notNaN (u := UnpackedFloat.add .binary64 x.toModel.unpack y.toModel.unpack) ?_
  rcases finite_or_infinite hx with hx | hx | hx
  · rcases unpack_of_finite hx with ⟨s, hu⟩ | ⟨s, m, e, hm, hu⟩ <;>
      rcases unpack_of_finite hy with ⟨s', hv⟩ | ⟨s', m', e', hm', hv⟩ <;> rw [hu, hv]
    case inl.inl => cases s <;> cases s' <;> rfl
    case inr.inr => exact normalize_notNaN _ _ _
    all_goals rfl
  all_goals
    rcases unpack_of_finite hy with ⟨s', hv⟩ | ⟨s', m', e', hm', hv⟩ <;> rw [hx, hv] <;> rfl

theorem div_notNaN {s : Sign} {m : Nat} {e : Int} {hm : 0 < m} (hx : x.isNaN = false)
    (hy : y.toModel.unpack = .finite s m e hm) : (x / y).isNaN = false := by
  refine unpack_pack_notNaN (u := UnpackedFloat.div .binary64 x.toModel.unpack y.toModel.unpack) ?_
  rw [hy]
  rcases finite_or_infinite hx with hx | hx | hx
  · rcases unpack_of_finite hx with ⟨s', hu⟩ | ⟨s', m', e', hm', hu⟩ <;> rw [hu]
    · rfl
    · exact roundWithAccuracy_notNaN _ _ _ _
  all_goals rw [hx]; rfl

end Grid

theorem finite_of_word (u : UInt32) : u.toFloat.isFinite := by
  have hsmall : (u.toNat : Int).natAbs ≤ 2 ^ 53 := u.toNat_lt.le.trans (by decide)
  exact (IsWhole.ofInt hsmall).finite

theorem Twister.sample_notNaN (t : Twister) : t.sample.1.isNaN = false := by
  have hproduct := Grid.mul_notNaN (finite_of_word (t.next.1 >>> 5)) (y := 67108864.0) rfl
  have hsum := Grid.add_notNaN hproduct (finite_of_word (t.next.2.next.1 >>> 6))
  exact Grid.div_notNaN hsum (y := 9007199254740992.0) rfl

namespace Source
variable {source source' : Source} {x : Number}

/-- A source gives numbers: none of the samples that it was given, if it was, is no number. -/
def Numbers (source : Source) : Prop :=
  ∀ samples, source.given? = some samples → ∀ x ∈ samples, x.isNaN = false

theorem Numbers.of_given (h : source'.given? = source.given?) (hsource : source.Numbers) :
    source'.Numbers := by
  unfold Numbers
  rwa [h]

theorem sample_notNaN (hsource : source.Numbers) (h : source.sample = .ok (x, source')) :
    x.isNaN = false := sample_forall (P := fun x => x.isNaN = false) (·.sample_notNaN) hsource h

end Source
end Gameroom
