import Gameroom.Proofs.Task
import Gameroom.Timestamp

/-! Every clock reading inside the years 1 to 9999 has a timestamp. -/

namespace Gameroom.Timestamp

/-- A clock reading falls in one of the years 1 to 9999. -/
def InYears (reading : Float) : Prop :=
  ∃ seconds micros, split (reading / 1000.0) = .ok (seconds, micros) ∧
    1 ≤ (civil (Int.fdiv seconds 86400)).1 ∧ (civil (Int.fdiv seconds 86400)).1 ≤ 9999

instance : DecidablePred InYears := fun reading =>
  decidable_of_iff ((split (reading / 1000.0)).toOption.any fun p =>
    decide (1 ≤ (civil (Int.fdiv p.1 86400)).1 ∧ (civil (Int.fdiv p.1 86400)).1 ≤ 9999)) (by
      unfold InYears
      cases split (reading / 1000.0) with
      | error fault => simp [Except.toOption]
      | ok p =>
        obtain ⟨seconds, micros⟩ := p
        simp [Except.toOption])

theorem year_bounds (day : Int) :
    Int.fdiv (day + 719468) 146097 * 400 ≤ (civil day).1 ∧
      (civil day).1 ≤ Int.fdiv (day + 719468) 146097 * 400 + 401 := by
  unfold civil
  dsimp only
  rw [Int.fdiv_eq_ediv_of_nonneg _ (by decide : (0 : Int) ≤ 146097)]
  generalize hdoe : (day + 719468 - (day + 719468) / 146097 * 146097).toNat = doe
  have hday : doe < 146097 := by omega
  have hyear : (doe - doe / 1460 + doe / 36524 - doe / 146096) / 365 ≤ 400 := by omega
  split_ifs <;> omega

theorem counted_of_year {seconds : Int} (hlow : 1 ≤ (civil (Int.fdiv seconds 86400)).1)
    (hhigh : (civil (Int.fdiv seconds 86400)).1 ≤ 9999) :
    ¬(seconds < firstCounted ∨ lastCounted < seconds) := by
  have hyear := year_bounds (Int.fdiv seconds 86400)
  rw [Int.fdiv_eq_ediv_of_nonneg _ (by decide : (0 : Int) ≤ 86400)] at hyear hlow hhigh
  rw [Int.fdiv_eq_ediv_of_nonneg _ (by decide : (0 : Int) ≤ 146097)] at hyear
  unfold firstCounted lastCounted
  omega

theorem ofMillis_ok {reading : Float} (h : InYears reading) :
    ∃ stamp, ofMillis reading = .ok stamp := by
  obtain ⟨seconds, micros, hsplit, hlow, hhigh⟩ := h
  have hcounted := counted_of_year hlow hhigh
  unfold ofMillis
  rw [hsplit]
  simp only [bind, Except.bind, if_neg hcounted]
  rw [if_neg (by omega)]
  exact ⟨_, rfl⟩

end Gameroom.Timestamp
