import Gameroom.Action.Cooldowns
import Gameroom.Proofs.Agree
import Gameroom.Proofs.Number.Distance
import Gameroom.Proofs.Timestamp

/-!
Clocks that show the same times later. Readings are whole milliseconds that are exactly floats; the
distance of two readings is that of the two that lie as much later, on either side of zero.
-/

namespace Gameroom

/-- A reading and the one that lies later by some milliseconds. -/
def DelayedReading (delay : Int) (x y : Float) : Prop :=
  ∃ n, x = floatOfInt n ∧ y = floatOfInt (n + delay) ∧ Exact n ∧ Exact (n + delay)

/-- A number that shows a whole number, which is exactly a float. -/
def Json.Shows (value : Json) (n : Int) : Prop :=
  Exact n ∧ ∃ w : Number, value = .number w ∧ w.toFloat = .ok (floatOfInt n)

/-- A document that shows a time and one that shows the time that lies later. -/
def DelayedTime (delay : Int) (value value' : Json) : Prop :=
  ∃ n, value.Shows n ∧ value'.Shows (n + delay)

/-- The timestamps of a reading and of the one that lies later. -/
def DelayedStamp (delay : Int) (t t' : String) : Prop :=
  ∃ x y, DelayedReading delay x y ∧ Timestamp.ofMillis x = .ok t ∧ Timestamp.ofMillis y = .ok t'

/-- Readings of a clock: inside the years 1 to 9999, and later by some milliseconds. -/
structure DelayedClock (delay : Int) (x y : Float) : Prop where
  later : DelayedReading delay x y
  years : Timestamp.InYears x
  years' : Timestamp.InYears y

section
variable {delay : Int} {now now' x y : Float} {value value' : Json}

theorem Json.Shows.toFloat {n : Int} (h : value.Shows n) : value.toFloat = .ok (floatOfInt n) := by
  obtain ⟨-, w, rfl, hw⟩ := h
  exact hw

theorem Json.Shows.isNull {n : Int} (h : value.Shows n) : value.isNull = false := by
  obtain ⟨-, w, rfl, -⟩ := h
  rfl

theorem Exact.shows {n : Int} (h : Exact n) : (Json.int n).Shows n :=
  ⟨h, .int n, rfl, if_pos h.finite⟩

theorem DelayedReading.sub (h : DelayedReading delay now now') (hx : DelayedReading delay x y) :
    now' - y = now - x := by
  obtain ⟨a, rfl, rfl, ha, ha'⟩ := h
  obtain ⟨b, rfl, rfl, hb, hb'⟩ := hx
  exact ha.sub_shifted hb ha' hb'

theorem DelayedReading.time (h : DelayedReading delay x y) :
    DelayedTime delay (.float x) (.float y) := by
  obtain ⟨n, rfl, rfl, hn, hn'⟩ := h
  exact ⟨n, ⟨hn, _, rfl, rfl⟩, hn', _, rfl, rfl⟩

theorem DelayedTime.taken (h : DelayedTime delay value value')
    (hnow : DelayedReading delay now now') :
    Json.takenFrom now' value' = Json.takenFrom now value := by
  obtain ⟨n, ⟨hn, w, rfl, hw⟩, hn', w', rfl, hw'⟩ := h
  have hsub := hnow.sub ⟨n, rfl, rfl, hn, hn'⟩
  simp only [Json.takenFrom, Json.asNumber?, hw, hw', Functor.map, Except.map, hsub]

theorem DelayedTime.given (h : DelayedTime delay value value') (x y : Float) :
    DelayedTime delay (if value.isNull then .float x else value)
      (if value'.isNull then .float y else value') := by
  obtain ⟨n, hn, hn'⟩ := h
  rw [hn.isNull, hn'.isNull]
  exact ⟨n, hn, hn'⟩

theorem DelayedClock.stamps (h : DelayedClock delay x y) : ∃ t t',
    Timestamp.ofMillis x = .ok t ∧ Timestamp.ofMillis y = .ok t' ∧ DelayedStamp delay t t' := by
  obtain ⟨t, ht⟩ := Timestamp.ofMillis_ok h.years
  obtain ⟨t', ht'⟩ := Timestamp.ofMillis_ok h.years'
  exact ⟨t, t', ht, ht', x, y, h.later, ht, ht'⟩

end

/-! ### Cooldowns -/

/-- Cooldowns of the same players and actions, each with the later time. -/
def Cooldowns.Delayed (delay : Int) : Cooldowns → Cooldowns → Prop :=
  Table.Matched (Table.Matched (DelayedTime delay))

namespace Cooldowns.Delayed
variable {delay : Int} {c c' : Cooldowns}

theorem stamps (h : Cooldowns.Delayed delay c c') (player : String) :
    (c.stamps player).Matched (DelayedTime delay) (c'.stamps player) := by
  have hplayer := h.get? player
  unfold Cooldowns.stamps
  generalize c.get? player = x, c'.get? player = x' at hplayer ⊢
  cases hplayer with
  | none => exact .nil
  | some h => exact h

theorem openFor (h : Cooldowns.Delayed delay c c') (player : String) :
    Cooldowns.Delayed delay (c.openFor player) (c'.openFor player) := h.put player (h.stamps player)

theorem stamp (h : Cooldowns.Delayed delay c c') (player action : String) {time time' : Json}
    (htime : DelayedTime delay time time') :
    Cooldowns.Delayed delay (c.stamp player action time) (c'.stamp player action time') :=
  h.put player ((h.stamps player).put action htime)

theorem clear (h : Cooldowns.Delayed delay c c') (player action : String) :
    Cooldowns.Delayed delay (c.clear player action) (c'.clear player action) := by
  unfold Cooldowns.clear
  rw [h.has player]
  split_ifs
  · exact h.put player ((h.stamps player).drop action)
  · exact h

theorem remaining {now now' : Float} (h : Cooldowns.Delayed delay c c')
    (hnow : DelayedReading delay now now') (player action : Json) (window : Float) :
    c'.remaining now' player action window = c.remaining now player action window := by
  unfold Cooldowns.remaining
  congr 1
  funext player
  congr 1
  funext action
  have hlast := (h.stamps player).get? action
  unfold Cooldowns.last?
  generalize (c.stamps player).get? action = x, (c'.stamps player).get? action = x' at hlast ⊢
  cases hlast with
  | none => rfl
  | some htime =>
    dsimp only
    rw [htime.taken hnow]

end Cooldowns.Delayed
end Gameroom
