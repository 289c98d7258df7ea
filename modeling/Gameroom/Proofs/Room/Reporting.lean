import Gameroom.Proofs.Room.Delivery
import Gameroom.Proofs.Room.Draws

/-!
How the ticks of a run are told. As long as listeners neither come nor go, every tick is told to all
of them, nobody is called between the ticks, and the numbers that a listener is told only rise.
-/

namespace Gameroom

namespace Json

/-- A document is a number that stands for a float. -/
def IsReal (value : Json) : Prop := value.asNumber?.isSome ∧ ∃ x, value.toFloat = .ok x

theorem IsReal.float (x : Float) : (Json.float x).IsReal := ⟨rfl, x, rfl⟩

theorem IsReal.min {b : Json} (h : b.IsReal) (x : Float) :
    ∃ c, (Json.float x).min b = .ok c ∧ c.IsReal := by
  obtain ⟨w, hw⟩ := Option.isSome_iff_exists.1 h.1
  rw [Json.min, before_number hw]
  refine ⟨_, rfl, ?_⟩
  split
  · exact h
  · exact .float x

theorem IsReal.max {b : Json} (h : b.IsReal) (x : Float) :
    ∃ c, (Json.float x).max b = .ok c ∧ c.IsReal := by
  obtain ⟨w, hw⟩ := Option.isSome_iff_exists.1 h.1
  rw [Json.max, after_number hw]
  refine ⟨_, rfl, ?_⟩
  split
  · exact h
  · exact .float x

end Json

namespace Room

variable {bs : List Room} {r r' : Room} {d : Definition} {o : Options}

/-! ### Between the ticks -/

theorem Edited.unheard (h : Edited r r') : Unheard r r' := by
  obtain ⟨s, -, rfl⟩ := h
  exact Room.unheard ⟨rfl, rfl, rfl⟩ rfl rfl

theorem Handled.unheard (h : Handled r r') : Unheard r r' := by
  obtain ⟨cooldowns, rfl⟩ := h
  exact Room.unheard ⟨rfl, rfl, rfl⟩ rfl rfl

/-- The calls between two rooms are those of the ticks that begin at some rooms. -/
structure Logged (bs : List Room) (r r' : Room) : Prop where
  ticks : r'.tickNotes.toList = r.tickNotes.toList ++ bs.flatMap tickCalls
  errors : r'.errorNotes.toList = r.errorNotes.toList ++ bs.flatMap errorCalls

/-- Every tick is told to the listeners that are there, and counted if its work comes to its end. -/
structure Reported (bs : List Room) (r r' : Room) : Prop where
  same : SameListeners r r'
  told : ∀ b ∈ bs, SameListeners r b ∧ Told b
  executed : r'.loop.ticksExecuted = r.loop.ticksExecuted + bs.countP completes

theorem tick_executed (r : Room) :
    r.tick.loop.ticksExecuted = r.loop.ticksExecuted + if r.completes then 1 else 0 := by
  have hcompletes : r.completes = r.worked.isOk := rfl
  rw [hcompletes]
  cases h : r.worked with
  | error fault => exact ((tick_told r).ended fault h).2.2
  | ok done => exact ((tick_told r).completed h).2.2

theorem Reported.append {bs' : List Room} {r'' : Room} (h : Reported bs r r')
    (h' : Reported bs' r' r'') : Reported (bs ++ bs') r r'' := by
  refine ⟨trans_of SameListeners h.same h'.same, fun b hb => ?_, ?_⟩
  · rcases List.mem_append.1 hb with hb | hb
    · exact h.told b hb
    · exact ⟨trans_of SameListeners h.same (h'.told b hb).1, (h'.told b hb).2⟩
  · rw [h'.executed, h.executed, List.countP_append, Nat.add_assoc]

theorem Reported.of_unheard (h : Unheard r r') : Reported [] r r' :=
  ⟨h.same, by simp, h.executed⟩

theorem tick_reported (r : Room) : Reported [r] r r.tick := by
  refine ⟨tick_same r, fun b hb => ?_, ?_⟩
  · obtain rfl := List.mem_singleton.1 hb
    exact ⟨refl_of SameListeners b, tick_told b⟩
  · rw [tick_executed, List.countP_singleton]

theorem Logged.append {bs' : List Room} {r'' : Room} (h : Logged bs r r')
    (h' : Logged bs' r' r'') : Logged (bs ++ bs') r r'' := by
  refine ⟨?_, ?_⟩
  · rw [h'.ticks, h.ticks, List.append_assoc, List.flatMap_append]
  · rw [h'.errors, h.errors, List.append_assoc, List.flatMap_append]

theorem Unheard.logged (h : Unheard r r') : Logged [] r r' := by
  obtain ⟨calls, herrors, htold⟩ := h.errors
  obtain rfl : calls = [] := List.map_eq_nil_iff.1 htold
  exact ⟨h.ticks, herrors⟩

theorem tick_logged (r : Room) : Logged [r] r r.tick := by
  refine ⟨?_, ?_⟩
  · rw [List.flatMap_singleton]
    exact (tick_told r).ticks
  · rw [List.flatMap_singleton]
    exact (tick_told r).errors

theorem Beats.reported (h : Beats Unheard bs r r') : Reported bs r r' ∧ Logged bs r r' := by
  induction h with
  | refl r => exact ⟨.of_unheard (refl_of Unheard r), (refl_of Unheard r).logged⟩
  | still h _ ih => exact ⟨(Reported.of_unheard h).append ih.1, h.logged.append ih.2⟩
  | @tick bs r r' _ ih => exact ⟨(tick_reported r).append ih.1, (tick_logged r).append ih.2⟩

end Room
end Gameroom
