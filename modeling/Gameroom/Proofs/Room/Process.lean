import Gameroom.Proofs.Action.Attempt
import Gameroom.Proofs.Room.Step

/-! What an action that is asked for does to a room. -/

namespace Gameroom

theorem Action.attempt_evolves {d : Definition} (now : Float) (name player : Json)
    (wellFormed : Bool) (b : Bench) :
    State.Evolves d b.state ((attempt d now name player wellFormed).outcome b).2.state :=
  attempt_moves (Effect.obey_evolves now d.effects) name player wellFormed b

def State.listed (s : State) (player action : Json) : State :=
  match s.player? player with
  | some p => { s with players := s.players.put p.id { p with actions := p.actions.push action } }
  | none => s

namespace Room
variable {action player parameters : Json} {r : Room}

theorem listed_evolves {d : Definition} (player action : Json) (s : State) :
    State.Evolves d s (s.listed player action) := by
  unfold State.listed
  split
  · rename_i p hp
    cases player with
    | text id => exact State.Change.evolves (.list hp action)
    | _ => cases hp
  · exact .refl

theorem record_evolves {d : Definition} (e : Execution) (r : Room) :
    State.Evolves d r.state (record e r).state := by
  obtain ⟨action, player, parameters, time, result⟩ := e
  cases action with
  | text name =>
    exact (State.Change.evolves (.ask name time r.state)).trans (listed_evolves player _ _)
  | _ => exact listed_evolves player _ r.state

def attempted (action player parameters : Json) (r : Room) :
    Except Fault (Except Failure (List Outcome)) × Bench :=
  (Action.attempt r.definition r.clock action player (parametersOf parameters).2).outcome
    (r.bench (parametersOf parameters).1)

theorem process_cooldowns :
    (process action player parameters r).2.cooldowns =
      (r.attempted action player parameters).2.cooldowns := rfl

theorem process_definition :
    (process action player parameters r).2.definition = r.definition := rfl

theorem process_clock : (process action player parameters r).2.clock = r.clock := rfl

theorem process_ids : (process action player parameters r).2.ids = r.ids := rfl

theorem process_history :
    (process action player parameters r).2.history =
      r.history.push (process action player parameters r).1 := rfl

theorem process_evolves :
    State.Evolves r.definition r.state (process action player parameters r).2.state :=
  (Action.attempt_evolves r.clock action player (parametersOf parameters).2
    (r.bench (parametersOf parameters).1)).trans
      (record_evolves (process action player parameters r).1 { r with
        state := (r.attempted action player parameters).2.state
        cooldowns := (r.attempted action player parameters).2.cooldowns })

theorem process_plays :
    State.Plays r.definition r.state (process action player parameters r).2.state :=
  process_evolves.plays

theorem process_succeeded :
    (process action player parameters r).1.succeeded ↔
      ∃ outcomes, (r.attempted action player parameters).1 = .ok (.ok outcomes) := by
  cases h : (r.attempted action player parameters).1 with
  | error fault =>
    have hresult : (process action player parameters r).1.result = .error (.stopped fault) := by
      unfold attempted at h
      simp only [process, h]
    simp [Execution.succeeded, hresult, Except.isOk, Except.toBool]
  | ok result =>
    have hresult : (process action player parameters r).1.result = result := by
      unfold attempted at h
      simp only [process, h]
    rw [Execution.succeeded, hresult]
    cases result <;> simp [Except.isOk, Except.toBool]

end Room
end Gameroom
