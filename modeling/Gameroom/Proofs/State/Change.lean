import Gameroom.Proofs.Effect.Change
import Gameroom.Proofs.State.Traversal

/-!
The changes that a state of play goes through between two ticks, while nobody comes or goes.
Effects, rules and what follows the count of a tick make none but these.
-/

namespace Gameroom

namespace State

/-- A change that an effect makes, or one that only a room makes. -/
inductive Change (d : Definition) : State → State → Prop
  | effect {e : Effect} {s s' : State} (h : e.Changes d s s') : Change d s s'
  | openEntity (entity : String) (s : State) : Change d s (s.openEntity entity)
  | update {id : String} {p : Player} {s : State} (h : s.players.get? id = some p)
      (nickname role : String) (score : Json) (lastSeen : Float) : Change d s
        { s with players := s.players.put p.id { p with nickname, role, score, lastSeen } }
  | list {id : String} {p : Player} {s : State} (h : s.players.get? id = some p) (action : Json) :
      Change d s
        { s with players := s.players.put p.id { p with actions := p.actions.push action } }
  | win (winner : Json) (s : State) : Change d s { s with winner }
  | ask (name : String) (time : Float) (s : State) :
      Change d s { s with lastAction := some name, lastActionTime := time }

/-- One state leads to another by changes. -/
abbrev Evolves (d : Definition) : State → State → Prop := Relation.ReflTransGen (Change d)

variable {d : Definition}

instance : IsPreorder State (Evolves d) where
  refl _ := .refl
  trans _ _ _ := .trans

theorem Change.evolves {s s' : State} (h : Change d s s') : Evolves d s s' := .single h

/-! ### Edits -/

/-- A change that lists no action and notes no last one. -/
inductive Edit (d : Definition) : State → State → Prop
  | effect {e : Effect} {s s' : State} (h : e.Changes d s s') : Edit d s s'
  | openEntity (entity : String) (s : State) : Edit d s (s.openEntity entity)
  | update {id : String} {p : Player} {s : State} (h : s.players.get? id = some p)
      (nickname role : String) (score : Json) (lastSeen : Float) : Edit d s
        { s with players := s.players.put p.id { p with nickname, role, score, lastSeen } }
  | win (winner : Json) (s : State) : Edit d s { s with winner }

/-- One state leads to another by edits. -/
abbrev Edits (d : Definition) : State → State → Prop := Relation.ReflTransGen (Edit d)

instance : IsPreorder State (Edits d) where
  refl _ := .refl
  trans _ _ _ := .trans

theorem Edit.edits {s s' : State} (h : Edit d s s') : Edits d s s' := .single h

theorem Edit.change {s s' : State} (h : Edit d s s') : Change d s s' := by
  cases h with
  | effect h => exact .effect h
  | openEntity entity => exact .openEntity entity s
  | update h nickname role score lastSeen => exact .update h nickname role score lastSeen
  | win winner => exact .win winner s

theorem Edits.evolves {s s' : State} (h : Edits d s s') : Evolves d s s' :=
  Relation.ReflTransGen.mono (fun _ _ => Edit.change) _ _ h

theorem edits_of_changes {e : Effect} {s s' : State} (h : e.Changes d s s') : Edits d s s' :=
  Edit.edits (.effect h)

/-- A relation to which effects of some kind keep, and what else an edit does, players apart. -/
structure Admits (d : Definition) (ok : Effect → Prop) (R : State → State → Prop) : Prop where
  effect : ∀ {e : Effect} {s s' : State}, ok e → e.Changes d s s' → R s s'
  openEntity : ∀ (entity : String) (s : State), R s (s.openEntity entity)
  win : ∀ (winner : Json) (s : State), R s { s with winner }

theorem edits_admits (d : Definition) : Admits d (fun _ => True) (Edits d) where
  effect _ h := edits_of_changes h
  openEntity entity s := Edit.edits (.openEntity entity s)
  win winner s := Edit.edits (.win winner s)

namespace Admits
variable {ok : Effect → Prop} {R : State → State → Prop} [IsPreorder State R]
  (hR : Admits d ok R)
include hR

theorem setVariable {name : String} {value : Json} {s s' : State} {done : Bool}
    (hok : ok (.setVar (.text name) value))
    (h : s.setVariable d name value = .ok (done, s')) : R s s' := by
  cases done with
  | true => exact hR.effect hok (.setVar h)
  | false => exact setVariable_false h ▸ refl_of R s

theorem modifyVariable {name : String} {op : Option Operation} {amount : Json} {s s' : State}
    {done : Bool} (hok : ∀ value, ok (.setVar (.text name) value))
    (h : s.modifyVariable d name op amount = .ok (done, s')) : R s s' := by
  rcases modifyVariable_ok h with ⟨-, rfl⟩ | ⟨held, hheld⟩
  · exact refl_of R s'
  · exact hR.setVariable (hok held) hheld

theorem setStatus {next : Status} (hok : ok (.setStatus (.text next.name))) (s : State) :
    R s (s.setStatus next).2 := by
  unfold State.setStatus
  split
  · refine hR.effect hok (.setStatus ?_ ‹_›)
    cases next <;> rfl
  · exact refl_of R s

theorem pause (hok : ok (.setStatus (.text Status.paused.name))) (s : State) :
    R s s.pause.2 := by
  unfold State.pause
  split
  · exact hR.setStatus hok s
  · exact refl_of R s

theorem resume (hok : ok (.setStatus (.text Status.running.name))) (s : State) :
    R s s.resume.2 := by
  unfold State.resume
  split
  · exact hR.setStatus hok s
  · exact refl_of R s

theorem finish (hok : ok (.setStatus (.text Status.finished.name))) (winner : Json) (s : State) :
    R s (s.finish winner) := by
  have h := hR.setStatus hok s
  unfold State.finish
  dsimp only
  split
  · exact trans_of R h (hR.win winner _)
  · exact h

theorem obey (now : Float) {effects : List Effect} (hok : ∀ e ∈ effects, ok e) :
    Effect.Obey d now R effects :=
  fun e he s => (e.apply_atomic d now s).moves fun _ => hR.effect (hok e he)

end Admits

theorem setStatus_edits (next : Status) (s : State) : Edits d s (s.setStatus next).2 :=
  (edits_admits d).setStatus trivial s

theorem pause_edits (s : State) : Edits d s s.pause.2 := (edits_admits d).pause trivial s

theorem updatePlayer_edits (now : Float) (id : Json) (updates : Table Json) (s : State) :
    (updatePlayer now id updates).Moves (Edits d) s := by
  unfold Task.Moves Task.outcome updatePlayer
  cases id with
  | text id =>
    cases hp : s.players.get? id with
    | none => simp only [player?, hp]; exact .refl
    | some p =>
      simp only [player?, hp]
      cases isScore (Json.field updates "score") with
      | error fault => exact Edit.edits (.update hp _ _ p.score p.lastSeen)
      | ok scored => exact Edit.edits (.update hp _ _ _ now)
  | _ => exact .refl

/-! ### What every change keeps -/

theorem setProperties_plays (entity : String) (properties : Table Json) (s : State) : Plays d s
    (properties.foldl (fun s property => s.setProperty entity property.1 property.2) s) := by
  induction properties generalizing s with
  | nil => exact .refl s
  | cons property rest ih =>
    exact (Step.plays (.setProperty entity property.1 property.2 s) trivial).trans (ih _)

theorem Change.plays {s s' : State} (h : Change d s s') : Plays d s s' := by
  cases h with
  | effect h =>
    cases h with
    | setVar h | modifyVar h => exact Step.plays (.write h) trivial
    | setEntity => exact setProperties_plays _ _ s
    | triggerEvent | message => exact .refl s
    | updateScore => exact Step.plays (.score _ _ s) trivial
    | addLog line => exact Step.plays (.log line s) trivial
    | addEvent h => exact Step.plays (.event h) trivial
    | setStatus _ h => exact Step.plays (.move h) trivial
  | openEntity entity => exact Step.plays (.openEntity entity s) trivial
  | update h | list h => exact update_plays h rfl
  | win winner => exact Step.plays (.win winner s) trivial
  | ask name time => exact Step.plays (.ask name time s) trivial

theorem Evolves.plays {s s' : State} (h : Evolves d s s') : Plays d s s' := by
  induction h with
  | refl => exact .refl s
  | tail _ h ih => exact ih.trans h.plays

end State

namespace Effect
open State
variable {d : Definition}

theorem obey_edits (now : Float) (effects : List Effect) : Obey d now (Edits d) effects :=
  (edits_admits d).obey now fun _ _ => trivial

theorem obey_evolves (now : Float) (effects : List Effect) : Obey d now (Evolves d) effects :=
  fun e he s => Edits.evolves (obey_edits now effects e he s)

end Effect

theorem Pulse.run_evolves {d : Definition} (now : Float) (gated : Bool) (p : Pulse) :
    State.Evolves d p.counted.state ((run d now gated).outcome p).2.state :=
  (run_moves (Effect.obey_evolves now d.effects) gated p).state

end Gameroom
