import Gameroom.Proofs.Room.Growth
import Gameroom.Proofs.Room.Record

/-!
What happens in a room between the ticks. It changes the state of play, but nothing else that a tick
reads or writes, and as long as the loop runs it keeps its pace.
-/

namespace Gameroom

/-- The length of a tick, the bound of a frame, and the time that is counted. -/
def Loop.pace (l : Loop) : Float × Json × Float × Float :=
  (l.timestep, l.maxFrame, l.accumulator, l.lastTime)

namespace Room

/-- Nothing changes that a tick reads or writes but the state of play, and no count of ticks is
lost. -/
structure Calm (r r' : Room) : Prop where
  definition : r'.definition = r.definition
  clock : r'.clock = r.clock
  gated : r'.gated = r.gated
  source : r'.source = r.source
  met : r'.met = r.met
  firedAt : r'.firedAt = r.firedAt
  tick : r.state.tick ≤ r'.state.tick

/-- A loop that runs afterwards ran before, at the same pace. -/
structure Still (r r' : Room) : Prop extends Calm r r' where
  loop : r'.loop.running → r.loop.running ∧ r'.loop.pace = r.loop.pace

instance : IsPreorder Room Calm where
  refl _ := ⟨rfl, rfl, rfl, rfl, rfl, rfl, le_rfl⟩
  trans _ _ _ h h' := ⟨h'.definition.trans h.definition, h'.clock.trans h.clock,
    h'.gated.trans h.gated, h'.source.trans h.source, h'.met.trans h.met,
    h'.firedAt.trans h.firedAt, h.tick.trans h'.tick⟩

instance : IsPreorder Room Still where
  refl r := ⟨refl_of Calm r, fun h => ⟨h, rfl⟩⟩
  trans _ _ _ h h' := ⟨trans_of Calm h.toCalm h'.toCalm, fun hrun =>
    ⟨(h.loop (h'.loop hrun).1).1, (h'.loop hrun).2.trans (h.loop (h'.loop hrun).1).2⟩⟩

variable {r r' r'' : Room}

theorem Still.trans (h : Still r r') (h' : Still r' r'') : Still r r'' := trans_of Still h h'

theorem withLoop_calm (r : Room) (l : Loop) : Calm r { r with loop := l } :=
  ⟨rfl, rfl, rfl, rfl, rfl, rfl, le_rfl⟩

theorem withState_still {s : State} (h : r.state.tick ≤ s.tick) : Still r { r with state := s } :=
  ⟨⟨rfl, rfl, rfl, rfl, rfl, rfl, h⟩, fun h => ⟨h, rfl⟩⟩

theorem evolves_still {s : State} (h : State.Evolves r.definition r.state s) :
    Still r { r with state := s } := withState_still h.ages.tick.ge

theorem withLoop_still {l : Loop} (h : l.running → r.loop.running ∧ l.pace = r.loop.pace) :
    Still r { r with loop := l } := ⟨withLoop_calm r l, h⟩

theorem Edited.still (h : Edited r r') : Still r r' := by
  obtain ⟨s, hs, rfl⟩ := h
  exact evolves_still hs.evolves

/-! ### The loop and its listeners -/

theorem halt_still (r : Room) : Still r r.halt := by
  unfold halt
  split
  · exact withLoop_still fun h => Bool.noConfusion h
  · exact refl_of Still r

theorem stop_still (r : Room) : Still r r.stop := by
  unfold stop
  split
  · exact (halt_still r).trans (evolves_still (State.pause_edits _).evolves)
  · exact refl_of Still r

theorem start_calm (r : Room) : Calm r r.start.2 := by
  have h := (State.setStatus_edits (d := r.definition) .running r.state).evolves
  unfold start State.start
  unfold State.setStatus at h ⊢
  split
  · exact refl_of Calm r
  · split_ifs at h ⊢
    · exact trans_of Calm (evolves_still h).toCalm (withLoop_calm _ r.loop.started)
    · exact refl_of Calm r

theorem start_of_running (h : r.loop.running) : r.start = (true, r) := if_pos h

theorem process_still (action player parameters : Json) (r : Room) :
    Still r (process action player parameters r).2 :=
  ⟨⟨rfl, rfl, rfl, rfl, rfl, rfl, process_evolves.ages.tick.ge⟩, fun h => ⟨h, rfl⟩⟩

theorem submit_still (action player parameters : Json) (r : Room) :
    (submit action player parameters).Moves Still r :=
  submit_keeps process_still action player parameters r

theorem submitAll_still (asked : List (Json × Json × Json)) (r : Room) :
    (submitAll asked).Moves Still r := submitAll_keeps process_still asked r

theorem note_still (key : String) (news : News) (vars : Table Json) (r : Room) :
    Still r (r.note key news vars) :=
  ⟨⟨rfl, rfl, rfl, rfl, rfl, rfl, le_rfl⟩, fun h => ⟨h, rfl⟩⟩

theorem tellError_still (fault : Fault) (r : Room) : Still r (r.tellError fault) :=
  ⟨⟨rfl, rfl, rfl, rfl, rfl, rfl, le_rfl⟩, fun h => ⟨h, rfl⟩⟩

theorem refusal_still (key : String) (news : News) (fault : Fault) (r : Room) :
    Still r (r.refusal key news fault) :=
  ⟨⟨rfl, rfl, rfl, rfl, rfl, rfl, le_rfl⟩, fun h => ⟨h, rfl⟩⟩

theorem tick_still (r : Room) : Still (r.afterPulse r.pulsed) r.tick :=
  tick_keeps process_still note_still refusal_still stop_still tellError_still
    (fun _ _ => withLoop_still fun h => ⟨h, rfl⟩) halt_still r

/-! ### Requests between the ticks -/

namespace Request

/-- Whether a request makes the room forget which conditions were met and which events happened. -/
def forgets : Request → Bool
  | .reset | .destroy | .close | .resetTracking => true
  | _ => false

/-- Whether a request may start ticks, or the loop, or change how it runs. -/
def drives : Request → Bool
  | .start | .resume | .setTimestep _ | .frame | .advanceHost _ | .forceTick | .forceTicks _ => true
  | _ => false

/-- Whether a request leaves what ticks read and write and lets the loop be. -/
def isStill (q : Request) : Bool := !q.setsClock && !q.restarts && !q.forgets && !q.drives

end Request

theorem alterLoop_still {f : Loop → Loop}
    (h : (f r.loop).running = r.loop.running ∧ (f r.loop).pace = r.loop.pace) :
    (alterLoop f).Moves Still r :=
  alter_moves (withLoop_still fun hrun => ⟨h.1 ▸ hrun, h.2⟩)

theorem setHost_still (ms : Json) (r : Room) : (setHost ms).Moves Still r :=
  (Task.moves_look _ r).bind fun _ _ _ => Task.moves_modify (withLoop_still fun h => ⟨h, rfl⟩)

theorem addPlayer_still (data : Table Json) (r : Room) : (addPlayer data).Moves Still r := by
  rw [Task.Moves]
  rcases addPlayer_cases data r with ⟨fault, h⟩ | ⟨p, -, -, -, h⟩
  · rw [Task.outcome_error h]
    exact ⟨⟨rfl, rfl, rfl, rfl, rfl, rfl, le_rfl⟩, fun h => ⟨h, rfl⟩⟩
  · rw [Task.outcome_ok h]
    exact ⟨⟨rfl, rfl, rfl, rfl, rfl, rfl, le_rfl⟩, fun h => ⟨h, rfl⟩⟩

theorem dropPlayer_still (id : Json) (r : Room) :
    (change (State.removePlayer id)).Moves Still r := by
  refine Task.moves_modifyGet (withState_still ?_)
  unfold State.removePlayer
  split
  · split <;> exact le_rfl
  · exact le_rfl

theorem removePlayer_still (id : Json) (r : Room) : (removePlayer id).Moves Still r := by
  refine (dropPlayer_still id r).bind fun removed r₁ _ => ?_
  cases removed with
  | false => exact Task.moves_pure _ r₁
  | true => exact ⟨⟨rfl, rfl, rfl, rfl, rfl, rfl, le_rfl⟩, fun h => ⟨h, rfl⟩⟩

theorem Handled.still (h : Handled r r') : Still r r' := by
  obtain ⟨cooldowns, rfl⟩ := h
  exact ⟨⟨rfl, rfl, rfl, rfl, rfl, rfl, le_rfl⟩, fun h => ⟨h, rfl⟩⟩

theorem perform_still {q : Request} (hq : q.isStill) (r : Room) : (perform q).Moves Still r := by
  cases q.aim with
  | looks hidle hset =>
    rw [Task.Moves, ← perform_look hidle hset r]
    exact refl_of Still r
  | setsUp _ hset =>
    cases q with
    | setHost ms => exact (setHost_still ms r).bind fun _ r₁ _ => Task.moves_pure _ r₁
    | onTick | onError => exact alterLoop_still ⟨rfl, rfl⟩
    | removeTick key =>
      unfold perform
      exact alterLoop_still ⟨rfl, rfl⟩
    | removeError key =>
      unfold perform
      exact alterLoop_still ⟨rfl, rfl⟩
    | seen =>
      exact Task.moves_modifyGet ⟨⟨rfl, rfl, rfl, rfl, rfl, rfl, le_rfl⟩, fun h => ⟨h, rfl⟩⟩
    | resetTracking | setTimestep => cases hq
    | _ => cases hset
  | edits hedits => exact (perform_edited hedits r).still
  | course hcourse =>
    cases q with
    | act action player parameters => exact answered (submit_still action player parameters r)
    | submit asked => exact answered (submitAll_still asked r)
    | process action player parameters =>
      exact answered (Task.moves_modifyGet (process_still action player parameters r))
    | stop | pause => exact alter_moves (stop_still r)
    | start | resume | frame | advanceHost | forceTick | forceTicks => cases hq
    | _ => cases hcourse
  | clock hclock => simp [Request.isStill, hclock] at hq
  | cooldowns hhandles => exact Handled.still (perform_handled hhandles r)
  | join data =>
    exact (Task.moves_look _ r).bind fun data r₁ _ => answered (addPlayer_still data r₁)
  | leave id => exact answered (removePlayer_still id r)
  | drop id => exact answered (dropPlayer_still id r)
  | count => exact withState_still (Nat.le_succ _)
  | clearHistory | clearRecent =>
    exact alter_moves ⟨⟨rfl, rfl, rfl, rfl, rfl, rfl, le_rfl⟩, fun h => ⟨h, rfl⟩⟩
  | renew | reset | destroy | close => cases hq

end Room
end Gameroom
