import Gameroom.Effect.Apply
import Gameroom.Proofs.Shift.Clock

/-!
States of play whose recorded times lie later. Nothing that happens to a state tells them apart, and
what happens leaves times that lie later again.
-/

namespace Gameroom

/-- The same player, who came and was changed later. -/
structure Player.Delayed (delay : Int) (p p' : Player) : Prop where
  rest : p' = { p with joinedAt := p'.joinedAt, lastSeen := p'.lastSeen }
  joinedAt : DelayedReading delay p.joinedAt p'.joinedAt
  lastSeen : DelayedReading delay p.lastSeen p'.lastSeen

/-- The same event, which was recorded later. -/
structure Event.Delayed (delay : Int) (e e' : Event) : Prop where
  rest : e' = { e with timestamp := e'.timestamp }
  timestamp : DelayedStamp delay e.timestamp e'.timestamp

namespace State
variable {delay : Int} {d : Definition} {s s' : State} {α : Type}

/-- A state in which other times are recorded. -/
def dated (players : Table Player) (events : Array Event) (time : Float) (s : State) : State :=
  { s with players, events, lastActionTime := time }

/-- The same state of play, with times that lie later. -/
structure Delayed (delay : Int) (s s' : State) : Prop where
  rest : s' = s.dated s'.players s'.events s'.lastActionTime
  players : s.players.Matched (Player.Delayed delay) s'.players
  events : List.Forall₂ (Event.Delayed delay) s.events.toList s'.events.toList
  lastActionTime : DelayedReading delay s.lastActionTime s'.lastActionTime

/-- Results of a step that belong together: the same one, with states that lie apart. -/
def Stepped (delay : Int) (p p' : α × State) : Prop := Same p.1 p'.1 ∧ Delayed delay p.2 p'.2

namespace Delayed

theorem same (h : Delayed delay s s') (f : State → α)
    (hf : ∀ players events time, f (s.dated players events time) = f s) : f s' = f s := by
  rw [h.rest]
  exact hf _ _ _

theorem aloof (h : Delayed delay s s') (f : State → State)
    (hf : ∀ s players events time,
      f (s.dated players events time) = (f s).dated players events time) :
    Delayed delay (f s) (f s') := by
  obtain ⟨hrest, hplayers, hevents, htime⟩ := h
  -- A change that ignores the dated parts leaves them, as dating a state with its own shows.
  have hself : f s = (f s).dated s.players s.events s.lastActionTime := hf s _ _ _
  rw [hrest, hf]
  exact ⟨rfl, by rw [hself]; exact hplayers, by rw [hself]; exact hevents,
    by rw [hself]; exact htime⟩

theorem context (h : Delayed delay s s') : s'.context = s.context := h.same _ fun _ _ _ => rfl

theorem vars (h : Delayed delay s s') : s'.vars = s.vars := h.same _ fun _ _ _ => rfl

theorem player? (h : Delayed delay s s') (id : Json) :
    Option.Rel (Player.Delayed delay) (s.player? id) (s'.player? id) := by
  cases id with
  | text id => exact h.players.get? id
  | _ => exact .none

theorem hasPlayer (h : Delayed delay s s') (id : Json) : s'.hasPlayer id = s.hasPlayer id := by
  have hplayer := h.player? id
  unfold State.hasPlayer
  generalize s.player? id = x, s'.player? id = x' at hplayer ⊢
  cases hplayer <;> rfl

/-! ### Variables and entities -/

theorem setVariable (h : Delayed delay s s') (name : String) (value : Json) :
    Answered (Stepped delay) (s.setVariable d name value) (s'.setVariable d name value) := by
  unfold State.setVariable
  cases d.vars.get? name with
  | none => exact .ok ⟨rfl, h⟩
  | some v =>
    refine (Answered.of_eq rfl).bind ?_
    rintro _ n rfl
    exact .ok ⟨rfl, h.aloof (fun s => { s with vars := s.vars.put name (v.clamp n) })
      fun _ _ _ _ => rfl⟩

theorem modifyVariable (h : Delayed delay s s') (name : String) (op : Option Operation)
    (amount : Json) : Answered (Stepped delay) (s.modifyVariable d name op amount)
      (s'.modifyVariable d name op amount) := by
  have hoperand : s'.operand name = s.operand name := h.same (·.operand name) fun _ _ _ => rfl
  unfold State.modifyVariable
  rw [hoperand]
  split
  · exact .ok ⟨rfl, h⟩
  · exact .ok ⟨rfl, h⟩
  · exact .ok ⟨rfl, h⟩
  · refine (Answered.of_eq rfl).bind ?_
    rintro _ n rfl
    exact h.setVariable name (.number n)
  · exact .ok ⟨rfl, h⟩

theorem onVariable (h : Delayed delay s s') (name : Json)
    {work : String → State → Except Fault (Bool × State)}
    (hwork : ∀ name, Answered (Stepped delay) (work name s) (work name s')) :
    Answered (Stepped delay) (s.onVariable name work) (s'.onVariable name work) := by
  refine (Answered.of_eq rfl).bind ?_
  rintro _ key rfl
  cases key with
  | some key => exact hwork key
  | none => exact .ok ⟨rfl, h⟩

theorem openEntity (h : Delayed delay s s') (entity : String) :
    Delayed delay (s.openEntity entity) (s'.openEntity entity) := h.aloof _ fun _ _ _ _ => rfl

theorem setProperty (h : Delayed delay s s') (entity key : String) (value : Json) :
    Delayed delay (s.setProperty entity key value) (s'.setProperty entity key value) :=
  h.aloof _ fun _ _ _ _ => rfl

/-! ### Players and scores -/

theorem withPlayers (h : Delayed delay s s') {players players' : Table Player}
    (hplayers : players.Matched (Player.Delayed delay) players') :
    Delayed delay { s with players } { s' with players := players' } := by
  obtain ⟨hrest, -, hevents, htime⟩ := h
  exact ⟨by rw [hrest]; rfl, hplayers, hevents, htime⟩

theorem removePlayer (h : Delayed delay s s') (id : Json) :
    Stepped delay (s.removePlayer id) (s'.removePlayer id) := by
  unfold State.removePlayer
  split
  · rename_i id
    rw [h.players.has id]
    split_ifs
    · exact ⟨rfl, h.withPlayers (h.players.drop id)⟩
    · exact ⟨rfl, h⟩
  · exact ⟨rfl, h⟩

theorem updateScore (h : Delayed delay s s') (id : String) (score : Json) :
    Delayed delay (s.updateScore id score) (s'.updateScore id score) := by
  have hplayers : Table.Matched (Player.Delayed delay) (s.updateScore id score).players
      (s'.updateScore id score).players := by
    have hplayer := h.players.get? id
    unfold State.updateScore
    dsimp only
    generalize s.players.get? id = x, s'.players.get? id = x' at hplayer ⊢
    cases hplayer with
    | none => exact h.players
    | @some p p' hp =>
      refine h.players.put id ⟨?_, hp.joinedAt, hp.lastSeen⟩
      rw [hp.rest]
  exact (h.aloof (fun s => { s with score := s.score.put id score }) fun _ _ _ _ => rfl).withPlayers
    hplayers

theorem updatePlayer {now now' : Float} (h : Delayed delay s s')
    (hnow : DelayedReading delay now now') (id : Json) (updates : Table Json) :
    Task.Agree (Delayed delay) Same (State.updatePlayer now id updates)
      (State.updatePlayer now' id updates) s s' := by
  have hplayer := h.player? id
  unfold Task.Agree State.updatePlayer
  generalize s.player? id = x, s'.player? id = x' at hplayer ⊢
  cases hplayer with
  | none => exact .ok rfl h
  | @some p p' hp =>
    obtain ⟨hrest, hjoined, hseen⟩ := hp
    -- A player under the own id, with the later time or with none that is new.
    have hput {q q' : Player} (hq : Player.Delayed delay q q') :
        Delayed delay { s with players := s.players.put q.id q }
          { s' with players := s'.players.put q'.id q' } := by
      have hid : q'.id = q.id := by rw [hq.rest]
      rw [hid]
      exact h.withPlayers (h.players.put q.id hq)
    have hrenamed (score : Json) {x x' : Float} (hx : DelayedReading delay x x') :
        Player.Delayed delay
          { p with
            nickname := renamed updates "alias" p.nickname
            role := renamed updates "role" p.role
            score, lastSeen := x }
          { p' with
            nickname := renamed updates "alias" p'.nickname
            role := renamed updates "role" p'.role
            score, lastSeen := x' } := ⟨by rw [hrest], hjoined, hx⟩
    have hscore : p'.score = p.score := by rw [hrest]
    dsimp only
    rw [hscore]
    cases isScore (Json.field updates "score") with
    | error fault =>
      exact .error fault (hput (hrenamed p.score hseen))
    | ok scored =>
      exact .ok rfl (hput (hrenamed (if scored then Json.field updates "score" else p.score) hnow))

/-! ### Logs, events and life -/

theorem addLog (h : Delayed delay s s') (message : Json) :
    Delayed delay (s.addLog message) (s'.addLog message) := h.aloof _ fun _ _ _ _ => rfl

theorem addEvent {now now' : Float} (h : Delayed delay s s') (hnow : DelayedClock delay now now')
    (type message : Json) :
    Answered (fun p p' => Event.Delayed delay p.1 p'.1 ∧ Delayed delay p.2 p'.2)
      (s.addEvent now type message) (s'.addEvent now' type message) := by
  obtain ⟨t, t', ht, ht', hlater⟩ := hnow.stamps
  unfold State.addEvent
  rw [ht, ht']
  have hevent : Event.Delayed delay ⟨type, message, t⟩ ⟨type, message, t'⟩ := ⟨rfl, hlater⟩
  refine .ok ⟨hevent, ?_⟩
  obtain ⟨hrest, hplayers, hevents, htime⟩ := h
  exact ⟨by rw [hrest]; rfl, hplayers, forall₂_push hevents hevent, htime⟩

theorem setStatus (h : Delayed delay s s') (next : Status) :
    Stepped delay (s.setStatus next) (s'.setStatus next) := by
  have hstatus : s'.status = s.status := h.same (·.status) fun _ _ _ => rfl
  unfold State.setStatus
  rw [hstatus]
  split_ifs
  · exact ⟨rfl, h.aloof (fun s => { s with status := next }) fun _ _ _ _ => rfl⟩
  · exact ⟨rfl, h⟩

theorem start (h : Delayed delay s s') : Stepped delay s.start s'.start := h.setStatus .running

theorem pause (h : Delayed delay s s') : Stepped delay s.pause s'.pause := by
  have hstatus : s'.status = s.status := h.same (·.status) fun _ _ _ => rfl
  unfold State.pause
  rw [hstatus]
  split_ifs
  · exact h.setStatus .paused
  · exact ⟨rfl, h⟩

theorem resume (h : Delayed delay s s') : Stepped delay s.resume s'.resume := by
  have hstatus : s'.status = s.status := h.same (·.status) fun _ _ _ => rfl
  unfold State.resume
  rw [hstatus]
  split_ifs
  · exact h.setStatus .running
  · exact ⟨rfl, h⟩

theorem finish (h : Delayed delay s s') (winner : Json) :
    Delayed delay (s.finish winner) (s'.finish winner) := by
  have hfinished := (h.setStatus .finished).2
  unfold State.finish
  dsimp only
  split_ifs
  · exact hfinished.aloof (fun s => { s with winner }) fun _ _ _ _ => rfl
  · exact hfinished

theorem countTick (h : Delayed delay s s') : Delayed delay s.countTick s'.countTick :=
  h.aloof _ fun _ _ _ _ => rfl

end Delayed

theorem fresh_delayed {now now' : Float} (hnow : DelayedReading delay now now')
    (vars : Table Number) (entities : Table (Table Json)) :
    Delayed delay (fresh now vars entities) (fresh now' vars entities) := ⟨rfl, .nil, .nil, hnow⟩

end State
end Gameroom
