import Gameroom.Loop.Basic
import Gameroom.Proofs.Number.Whole
import Gameroom.Proofs.Task

/-! The time step of a loop is held between its bounds, and held there it stays as it is. -/

namespace Gameroom.Json
variable {value held : Json} {lo hi x : Float}

def Inside (lo hi : Float) (n : Number) : Prop :=
  n.order? (.float hi) = some .lt ∧ n.order? (.float lo) = some .gt

theorem order?_number (sign : String) {n : Number} (h : value.asNumber? = some n) :
    order? sign value (.float x) = .ok (n.order? (.float x)) := by
  cases value <;> cases h <;> simp [order?, float, asNumber?]

theorem number_of_order? {sign : String} {o : Option Ordering}
    (h : order? sign value (.float x) = .ok o) : ∃ n, value.asNumber? = some n := by
  cases value with
  | bool | number => exact ⟨_, rfl⟩
  | null | text | list | object => simp [order?, float, asNumber?] at h

theorem before_number {n : Number} (h : value.asNumber? = some n) :
    value.before (.float x) = .ok (n.order? (.float x) == some .lt) := by
  rw [before, order?_number _ h]
  rfl

theorem after_number {n : Number} (h : value.asNumber? = some n) :
    value.after (.float x) = .ok (n.order? (.float x) == some .gt) := by
  rw [after, order?_number _ h]
  rfl

theorem clamp_ok (h : clamp (.float lo) (.float hi) value = .ok held) :
    held = .float lo ∨ held = .float hi ∨
      ∃ n, value.asNumber? = some n ∧ Inside lo hi n ∧ held = value := by
  obtain ⟨low, hlow, h⟩ := ok_of_bind h
  obtain ⟨below, hbelow, hmin⟩ := ok_of_bind hlow
  obtain ⟨above, habove, hmax⟩ := ok_of_bind h
  obtain ⟨o, ho, -⟩ := ok_of_map hbelow
  obtain ⟨n, hn⟩ := number_of_order? ho
  rw [before_number hn] at hbelow
  cases hmin
  cases hmax
  cases above with
  | false => exact .inl rfl
  | true =>
    cases below with
    | false => exact .inr (.inl rfl)
    | true =>
      change value.after (.float lo) = .ok true at habove
      rw [after_number hn] at habove
      exact .inr (.inr ⟨n, hn, ⟨by simpa using hbelow, by simpa using habove⟩, rfl⟩)

theorem clamp_inside (h : Inside lo hi (.float x)) :
    clamp (.float lo) (.float hi) (.float x) = .ok (.float x) := by
  have hnumber : (float x).asNumber? = some (.float x) := rfl
  have hbefore := before_number (x := hi) hnumber
  have hafter := after_number (x := lo) hnumber
  rw [h.1] at hbefore
  rw [h.2] at hafter
  have hmin : min (float hi) (float x) = .ok (float x) := by rw [min, hbefore]; rfl
  have hmax : max (float lo) (float x) = .ok (float x) := by rw [max, hafter]; rfl
  rw [clamp, hmin]
  exact hmax

end Gameroom.Json

namespace Gameroom.Loop

theorem timestepOf_inside {x : Float} (h : Json.Inside 1 100 (.float x)) :
    timestepOf (.float x) = .ok x := by
  rw [timestepOf, minTimestep, maxTimestep, Json.clamp_inside h]
  rfl

theorem inside_floatOfInt {i : Int} (h : Json.Inside 1 100 (.int i)) :
    Json.Inside 1 100 (.float (floatOfInt i)) := by
  have hbelow : compare i 100 = .lt := by
    rw [← Option.some_inj, ← Number.order?_int_whole i (by decide : (100 : Int).natAbs < 2 ^ 53)]
    exact h.1
  have habove : compare i 1 = .gt := by
    rw [← Option.some_inj, ← Number.order?_int_whole i (by decide : (1 : Int).natAbs < 2 ^ 53)]
    exact h.2
  rw [Int.compare_eq_lt] at hbelow
  rw [Int.compare_eq_gt] at habove
  have hsmall : i.natAbs < 2 ^ 53 := by omega
  rwa [Json.Inside, Number.order?_whole hsmall, Number.order?_whole hsmall]

theorem timestepOf_held {ms : Json} {t : Float} (h : timestepOf ms = .ok t) :
    timestepOf (.float t) = .ok t := by
  obtain ⟨held, hheld, ht⟩ := ok_of_bind h
  rcases Json.clamp_ok hheld with rfl | rfl | ⟨n, hn, hinside, rfl⟩
  · cases ht
    rfl
  · cases ht
    rfl
  · cases held with
    | bool b =>
      cases hn
      cases b <;> exact absurd hinside.2 (by decide +kernel)
    | number =>
      cases hn
      cases n with
      | int i =>
        obtain rfl := Number.eq_of_toFloat ht
        exact timestepOf_inside (inside_floatOfInt hinside)
      | float x =>
        cases ht
        exact timestepOf_inside hinside
    | null | text | list | object => cases hn

end Gameroom.Loop
