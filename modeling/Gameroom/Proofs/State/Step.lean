import Gameroom.Proofs.Table
import Gameroom.Proofs.Task
import Gameroom.State

/-! The steps that a state of play can take. -/

namespace Gameroom

namespace State

/-- What a step of a state does. -/
inductive Kind where
  /-- A variable is written. -/
  | written (name : String)
  | joined (player : String)
  | left (player : String)
  | other

/-- One change of a state. -/
inductive Step (d : Definition) : Kind → State → State → Prop
  | write {name : String} {value : Json} {s s' : State}
      (h : s.setVariable d name value = .ok (true, s')) : Step d (.written name) s s'
  | openEntity (entity : String) (s : State) : Step d .other s (s.openEntity entity)
  | setProperty (entity key : String) (value : Json) (s : State) :
      Step d .other s (s.setProperty entity key value)
  | join (p : Player) (s : State) :
      Step d (.joined p.id) s { s with players := s.players.put p.id p }
  | leave (id : String) (s : State) : Step d (.left id) s { s with players := s.players.drop id }
  | update {id : String} {p p' : Player} {s : State} (h : s.players.get? id = some p)
      (hid : p'.id = p.id) : Step d .other s { s with players := s.players.put p'.id p' }
  | score (id : String) (score : Json) (s : State) : Step d .other s (s.updateScore id score)
  | log (message : Json) (s : State) : Step d .other s (s.addLog message)
  | event {now : Float} {type message : Json} {e : Event} {s s' : State}
      (h : s.addEvent now type message = .ok (e, s')) : Step d .other s s'
  | move {next : Status} {s : State} (h : s.status.permits next) :
      Step d .other s { s with status := next }
  | win (winner : Json) (s : State) : Step d .other s { s with winner }
  | count (s : State) : Step d .other s s.countTick
  | ask (name : String) (time : Float) (s : State) :
      Step d .other s { s with lastAction := some name, lastActionTime := time }

namespace Kind

/-- Steps at which no player comes or goes. -/
def isPlay : Kind → Prop
  | joined _ | left _ => False
  | _ => True

end Kind

/-- One state leads to another while the same players stay. -/
abbrev Plays (d : Definition) : State → State → Prop := Leads (Step d) Kind.isPlay

variable {d : Definition}

theorem Step.plays {k : Kind} {s s' : State} (h : Step d k s s') (hk : k.isPlay) : Plays d s s' :=
  .single hk h

theorem update_plays {id : String} {p p' : Player} {s : State} (h : s.players.get? id = some p)
    (hid : p'.id = p.id) : Plays d s { s with players := s.players.put p.id p' } :=
  hid ▸ Step.plays (.update h hid) trivial

/-! ### What is known of a write to a variable -/

theorem setVariable_false {name : String} {value : Json} {s s' : State}
    (h : s.setVariable d name value = .ok (false, s')) : s' = s := by
  unfold setVariable at h
  split at h
  · cases h
    rfl
  · obtain ⟨n, -, hn⟩ := ok_of_bind h
    cases hn

theorem setVariable_ok {name : String} {value : Json} {s s' : State}
    (h : s.setVariable d name value = .ok (true, s')) :
    ∃ v n, d.vars.get? name = some v ∧ s' = { s with vars := s.vars.put name (v.clamp n) } := by
  unfold setVariable at h
  split at h
  · cases h
  · rename_i v hv
    obtain ⟨n, -, h⟩ := ok_of_bind h
    cases h
    exact ⟨v, n, hv, rfl⟩

theorem modifyVariable_ok {name : String} {op : Option Operation} {amount : Json} {s s' : State}
    {done : Bool} (h : s.modifyVariable d name op amount = .ok (done, s')) :
    (done = false ∧ s' = s) ∨ ∃ held, s.setVariable d name held = .ok (done, s') := by
  unfold modifyVariable at h
  split at h
  case h_4 =>
    obtain ⟨v, -, hv⟩ := ok_of_bind h
    exact .inr ⟨_, hv⟩
  all_goals
    cases h
    exact .inl ⟨rfl, rfl⟩

theorem onVariable_ok {name : Json} {work : String → State → Except Fault (Bool × State)}
    {s s' : State} {done : Bool} (h : s.onVariable name work = .ok (done, s')) :
    (done = false ∧ s' = s) ∨ ∃ key, name = .text key ∧ work key s = .ok (done, s') := by
  obtain ⟨key, hkey, hwork⟩ := ok_of_bind h
  cases key with
  | none =>
    cases hwork
    exact .inl ⟨rfl, rfl⟩
  | some key =>
    cases name <;> cases hkey
    exact .inr ⟨_, rfl, hwork⟩

end State
end Gameroom
