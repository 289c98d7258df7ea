import Gameroom.Proofs.Room.Process

/-!
The course that a state of play takes while players act and time passes: effects of the definition,
ticks, moves of the status and the records of what was asked for.
-/

namespace Gameroom.State

def followed (e : Execution) (s : State) : State :=
  match e.action with
  | .text name => { s with lastAction := some name, lastActionTime := e.time }
  | _ => s

def recorded (e : Execution) (s : State) : State := (s.followed e).listed e.player e.action

/-- One change on the course of a game, and the executions that it records. -/
inductive Deed (d : Definition) : List Execution → State → State → Prop
  | effect {e : Effect} (he : e ∈ d.effects) (now : Float) (s : State) :
      Deed d [] s ((e.apply d now).outcome s).2
  | count (s : State) : Deed d [] s s.countTick
  | move (next : Status) (s : State) : Deed d [] s (s.setStatus next).2
  | record (e : Execution) (s : State) : Deed d [e] s (s.recorded e)

/-- Changes one after the other, and the executions that they record. -/
inductive Course (d : Definition) : List Execution → State → State → Prop
  | refl (s : State) : Course d [] s s
  | step {es es' : List Execution} {s s' s'' : State} (h : Deed d es s s')
      (rest : Course d es' s' s'') : Course d (es ++ es') s s''

variable {d : Definition} {es es' : List Execution} {s s' s'' : State}

theorem Course.trans (h : Course d es s s') (h' : Course d es' s' s'') :
    Course d (es ++ es') s s'' := by
  induction h with
  | refl => exact h'
  | step hdeed _ ih =>
    rw [List.append_assoc]
    exact .step hdeed (ih h')

theorem Deed.course (h : Deed d es s s') : Course d es s s' := by
  have hcourse := Course.step h (.refl s')
  rwa [List.append_nil] at hcourse

instance : IsPreorder State (Course d []) where
  refl := .refl
  trans _ _ _ h h' := h.trans h'

theorem Course.keeps {P : State → Prop} (hdeed : ∀ es s s', Deed d es s s' → P s → P s')
    (h : Course d es s s') (hs : P s) : P s' := by
  induction h with
  | refl => exact hs
  | step hstep _ ih => exact ih (hdeed _ _ _ hstep hs)

theorem pause_course (s : State) : Course d [] s s.pause.2 := by
  unfold pause
  split
  · exact (Deed.move _ s).course
  · exact .refl s

end Gameroom.State

namespace Gameroom

theorem Effect.obey_course (d : Definition) (now : Float) :
    Obey d now (State.Course d []) d.effects :=
  fun _ he s => (State.Deed.effect he now s).course

end Gameroom
