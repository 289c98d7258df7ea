import Gameroom.Proofs.Room.Beats

/-!
What drives a room, for any relation: if the work of a tick keeps to it, an action that is asked
for, the notes of listeners, and the loop as it starts, stops and counts time, then whatever players
do and time brings keeps to it.
-/

namespace Gameroom.Room

/-- A relation to which all keeps that players do and ticks bring, as long as no time is counted. -/
structure Timeless (R : Room → Room → Prop) : Prop where
  /-- The work of a tick, whether or not a fault ends it. -/
  work : ∀ r : Room, R r (r.afterPulse r.pulsed)
  act : ∀ (action player parameters : Json) (r : Room), R r (process action player parameters r).2
  start : ∀ r : Room, R r r.start.2
  stop : ∀ r : Room, R r r.stop
  halt : ∀ r : Room, R r r.halt
  loop : ∀ (r : Room) (l : Loop), l.running = r.loop.running → l.timestep = r.loop.timestep →
    l.accumulator = r.loop.accumulator → R r { r with loop := l }
  notes : ∀ (r : Room) (ticks : Array TickNote) (errors : Array ErrorNote),
    R r { r with tickNotes := ticks, errorNotes := errors }

/-- A relation to which all keeps that players do and time brings. -/
structure Driven (R : Room → Room → Prop) : Prop extends Timeless R where
  time : ∀ (host accumulator lastTime : Float) (r : Room), R r (timed host accumulator lastTime r)

def Request.countsTime : Request → Bool
  | .advanceHost _ | .frame => true
  | _ => false

namespace Timeless
variable {R : Room → Room → Prop} [IsPreorder Room R] (h : Timeless R)
include h

theorem tellError (fault : Fault) (r : Room) : R r (r.tellError fault) :=
  trans_of R (h.notes r r.tickNotes (r.tellError fault).errorNotes)
    (h.loop _ (r.tellError fault).loop rfl rfl rfl)

theorem refusal (key : String) (news : News) (fault : Fault) (r : Room) :
    R r (r.refusal key news fault) :=
  trans_of R (h.notes r _ r.errorNotes) (h.tellError fault _)

theorem tick (r : Room) : R r r.tick := by
  have htold : R (r.afterPulse r.pulsed) r.tick :=
    tick_keeps h.act (fun _ _ _ r => h.notes r _ r.errorNotes) h.refusal h.stop h.tellError
      (fun r _ => h.loop r _ rfl rfl rfl) h.halt r
  exact trans_of R (h.work r) htold

theorem ticks (n : Nat) (r : Room) : R r (Room.ticks n r) := by
  induction n generalizing r with
  | zero => exact refl_of R r
  | succ n ih => exact trans_of R (h.tick r) (ih r.tick)

theorem submit (action player parameters : Json) (r : Room) :
    (Room.submit action player parameters).Moves R r :=
  submit_keeps h.act action player parameters r

theorem submitAll (asked : List (Json × Json × Json)) (r : Room) :
    (Room.submitAll asked).Moves R r := submitAll_keeps h.act asked r

theorem perform {q : Request} (hq : q.isCourse) (htime : q.countsTime = false) (r : Room) :
    (Room.perform q).Moves R r := by
  cases q with
  | act action player parameters => exact answered (h.submit action player parameters r)
  | submit asked => exact answered (h.submitAll asked r)
  | process action player parameters =>
    exact answered (Task.moves_modifyGet (h.act action player parameters r))
  | forceTick => exact h.tick r
  | forceTicks count =>
    rw [Task.Moves, forceTicks_end]
    exact h.ticks count r
  | start | resume => exact answered (Task.moves_modifyGet (h.start r))
  | stop | pause => exact alter_moves (h.stop r)
  | advanceHost | frame => cases htime
  | _ => cases hq

end Timeless

namespace Driven
variable {R : Room → Room → Prop} [IsPreorder Room R] (h : Driven R)
include h

theorem spendOne (r : Room) : R r r.spendOne := by
  have hpaid : R r.tick r.spendOne := h.time _ _ _ r.tick
  exact trans_of R (h.tick r) hpaid

theorem spend (fuel count : Nat) (r : Room) : R r (Room.spend fuel count r).2 := by
  induction fuel generalizing count r with
  | zero => exact refl_of R r
  | succ fuel ih =>
    rw [spend_succ]
    split_ifs
    · exact trans_of R (h.spendOne r) (ih (count + 1) r.spendOne)
    · exact refl_of R r

theorem frame (r : Room) : Room.frame.Moves R r := by
  unfold Task.Moves
  cases hrun : r.loop.running with
  | false =>
    rw [Task.outcome_ok (frame_stopped hrun)]
    exact refl_of R r
  | true =>
    cases htime : r.loop.elapsed >>= Json.toFloat with
    | error fault =>
      obtain ⟨x, hend⟩ := frame_untold hrun htime
      rw [Task.outcome_error hend]
      exact h.time _ _ _ r
    | ok x =>
      rw [Task.outcome_ok (frame_begun hrun htime)]
      have hnow : R r (r.afterTime x) := h.time _ _ _ r
      exact trans_of R hnow (h.spend _ 0 (r.afterTime x))

theorem advanceHost (ms : Json) (r : Room) : (Room.advanceHost ms).Moves R r := by
  refine (Task.moves_look _ r).bind fun host r₁ _ => ?_
  refine Task.Moves.bind (Task.moves_modify (h.time _ _ _ r₁)) fun _ r₂ _ => ?_
  refine Task.Moves.bind (Task.moves_modify ?_) fun _ r₃ _ =>
    Task.moves_get_bind (Task.moves_pure _ r₃)
  split
  · exact h.frame r₂
  · exact refl_of R r₂

theorem perform {q : Request} (hq : q.isCourse) (r : Room) : (Room.perform q).Moves R r := by
  cases htime : q.countsTime with
  | false => exact h.toTimeless.perform hq htime r
  | true =>
    cases q with
    | advanceHost ms => exact answered (h.advanceHost ms r)
    | frame => exact answered (h.frame r)
    | _ => cases htime

/-! ### Where ticks begin -/

theorem ticksFrom (n : Nat) (r : Room) : ∀ b ∈ Room.ticksFrom n r, R r b := by
  induction n generalizing r with
  | zero => simp [Room.ticksFrom]
  | succ n ih =>
    exact List.forall_mem_cons.2 ⟨refl_of R r, fun b hb => trans_of R (h.tick r) (ih r.tick b hb)⟩

theorem ticksSpent (fuel : Nat) (r : Room) : ∀ b ∈ Room.ticksSpent fuel r, R r b := by
  induction fuel generalizing r with
  | zero => simp [Room.ticksSpent]
  | succ fuel ih =>
    rw [Room.ticksSpent]
    split_ifs
    · exact List.forall_mem_cons.2
        ⟨refl_of R r, fun b hb => trans_of R (h.spendOne r) (ih r.spendOne b hb)⟩
    · simp

theorem ticksFramed (r : Room) : ∀ b ∈ Room.ticksFramed r, R r b := by
  unfold Room.ticksFramed
  split_ifs
  · split
    · simp
    · rename_i x _
      have htime : R r (r.afterTime x) := h.time _ _ _ r
      exact fun b hb => trans_of R htime (h.ticksSpent _ _ b hb)
  · simp

theorem ticksHosted (ms : Json) (r : Room) : ∀ b ∈ Room.ticksHosted ms r, R r b := by
  unfold Room.ticksHosted
  split
  · simp
  · split_ifs
    · rename_i host _ _
      have hmoved : R r { r with loop := { r.loop with host } } := h.time _ _ _ r
      exact fun b hb => trans_of R hmoved (h.ticksFramed _ b hb)
    · simp

theorem ticksOn (q : Request) (r : Room) : ∀ b ∈ Room.ticksOn q r, R r b := by
  cases q with
  | forceTick => exact List.forall_mem_singleton.2 (refl_of R r)
  | forceTicks count => exact h.ticksFrom count r
  | frame => exact h.ticksFramed r
  | advanceHost ms => exact h.ticksHosted ms r
  | _ => simp [Room.ticksOn]

end Driven
end Gameroom.Room
