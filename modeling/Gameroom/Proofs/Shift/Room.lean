import Gameroom.Proofs.Shift.Pulse
import Gameroom.Room.Ticking

/-!
Rooms whose times lie later: what players do in them and how they start all over. The records of
both are the same but for the times.
-/

namespace Gameroom

/-- The news of the same tick. -/
structure News.Delayed (delay : Int) (n n' : News) : Prop where
  tick : n'.tick = n.tick
  state : State.Delayed delay n.state n'.state
  shown : n'.shown = n.shown

/-- The same call of a listener for ticks. -/
structure TickNote.Delayed (delay : Int) (n n' : TickNote) : Prop where
  key : n'.key = n.key
  news : News.Delayed delay n.news n'.news
  vars : n'.vars = n.vars
  refusal : n'.refusal = n.refusal

namespace Room

/-- What of a room is dated. -/
structure Dates where
  clock : Float
  state : State
  cooldowns : Cooldowns
  history : Array Execution
  recent : Array Execution
  firedAt : Table Float
  tickNotes : Array TickNote

def dates (r : Room) : Dates :=
  ⟨r.clock, r.state, r.cooldowns, r.history, r.recent, r.firedAt, r.tickNotes⟩

/-- A room in which other times are recorded. -/
def dated (t : Dates) (r : Room) : Room :=
  { r with
    clock := t.clock
    state := t.state
    cooldowns := t.cooldowns
    history := t.history
    recent := t.recent
    firedAt := t.firedAt
    tickNotes := t.tickNotes }

/-- The same with times that lie later. -/
structure Dates.Delayed (delay : Int) (t t' : Dates) : Prop where
  clock : DelayedClock delay t.clock t'.clock
  state : State.Delayed delay t.state t'.state
  cooldowns : Cooldowns.Delayed delay t.cooldowns t'.cooldowns
  history : List.Forall₂ (Execution.Delayed delay) t.history.toList t'.history.toList
  recent : List.Forall₂ (Execution.Delayed delay) t.recent.toList t'.recent.toList
  firedAt : t.firedAt.Matched (DelayedReading delay) t'.firedAt
  tickNotes : List.Forall₂ (TickNote.Delayed delay) t.tickNotes.toList t'.tickNotes.toList

/-- The same room, with times that lie later. -/
structure Delayed (delay : Int) (r r' : Room) : Prop where
  rest : r' = r.dated r'.dates
  dates : Dates.Delayed delay r.dates r'.dates

open Gameroom.Task

variable {delay : Int} {r r' : Room} {α : Type} {V : α → α → Prop}

namespace Delayed

theorem same (h : Delayed delay r r') (f : Room → α) (hf : ∀ r t, f (r.dated t) = f r) :
    f r' = f r := by
  rw [h.rest]
  exact hf r _

theorem redated (h : Delayed delay r r') (t t' : Dates) (ht : Dates.Delayed delay t t') :
    Delayed delay (r.dated t) (r'.dated t') := by
  rw [h.rest]
  exact ⟨rfl, ht⟩

theorem aloof (h : Delayed delay r r') {f : Room → Room}
    (hf : ∀ r t, f (r.dated t) = (f r).dated t) : Delayed delay (f r) (f r') := by
  have hself : f r = (f r).dated r.dates := hf r r.dates
  rw [h.rest, hf, hself]
  exact ⟨rfl, h.dates⟩

theorem clock (h : Delayed delay r r') : DelayedClock delay r.clock r'.clock := h.dates.clock

theorem state (h : Delayed delay r r') : State.Delayed delay r.state r'.state := h.dates.state

theorem cooldowns (h : Delayed delay r r') : Cooldowns.Delayed delay r.cooldowns r'.cooldowns :=
  h.dates.cooldowns

theorem definition (h : Delayed delay r r') : r'.definition = r.definition :=
  h.same (·.definition) fun _ _ => rfl

theorem loop (h : Delayed delay r r') : r'.loop = r.loop := h.same (·.loop) fun _ _ => rfl

theorem withClock (h : Delayed delay r r') {x y : Float} (hclock : DelayedClock delay x y) :
    Delayed delay { r with clock := x } { r' with clock := y } :=
  h.redated { r.dates with clock := x } { r'.dates with clock := y }
    { h.dates with clock := hclock }

theorem withState (h : Delayed delay r r') {s s' : State} (hs : State.Delayed delay s s') :
    Delayed delay { r with state := s } { r' with state := s' } :=
  h.redated { r.dates with state := s } { r'.dates with state := s' } { h.dates with state := hs }

theorem withCooldowns (h : Delayed delay r r') {c c' : Cooldowns}
    (hc : Cooldowns.Delayed delay c c') :
    Delayed delay { r with cooldowns := c } { r' with cooldowns := c' } :=
  h.redated { r.dates with cooldowns := c } { r'.dates with cooldowns := c' }
    { h.dates with cooldowns := hc }

theorem withLoop (h : Delayed delay r r') (f : Loop → Loop) :
    Delayed delay { r with loop := f r.loop } { r' with loop := f r'.loop } :=
  h.aloof (f := fun r => { r with loop := f r.loop }) fun _ _ => rfl

theorem withSource (h : Delayed delay r r') (source : Source) :
    Delayed delay { r with source } { r' with source } :=
  h.aloof (f := fun r => { r with source }) fun _ _ => rfl

/-! ### Work on the state -/

theorem onState (h : Delayed delay r r') {t t' : Task State α}
    (ht : Agree (State.Delayed delay) V t t' r.state r'.state) :
    Agree (Delayed delay) V (Room.onState t) (Room.onState t') r r' :=
  ht.on fun _ _ hs => h.withState hs

theorem change (h : Delayed delay r r') {f f' : State → α × State}
    (hV : V (f r.state).1 (f' r'.state).1)
    (hs : State.Delayed delay (f r.state).2 (f' r'.state).2) :
    Agree (Delayed delay) V (Room.change f) (Room.change f') r r' :=
  agree_modifyGet hV (h.withState hs)

/-! ### The life of a room -/

theorem halt (h : Delayed delay r r') : Delayed delay r.halt r'.halt :=
  h.aloof fun r t => by
    unfold Room.halt
    rw [apply_ite (dated t)]
    rfl

theorem stop (h : Delayed delay r r') : Delayed delay r.stop r'.stop := by
  unfold Room.stop
  rw [h.loop]
  split
  · exact h.halt.withState h.halt.state.pause.2
  · exact h

theorem start (h : Delayed delay r r') :
    r'.start.1 = r.start.1 ∧ Delayed delay r.start.2 r'.start.2 := by
  obtain ⟨hmoved, hs⟩ := h.state.start
  unfold Room.start
  rw [h.loop]
  split
  · exact ⟨rfl, h⟩
  · generalize r.state.start = p, r'.state.start = p' at hmoved hs ⊢
    obtain ⟨moved, s⟩ := p
    obtain ⟨_, s'⟩ := p'
    cases hmoved
    cases moved with
    | true =>
      have hstarted := (h.withState hs).withLoop Loop.started
      rw [h.loop] at hstarted
      exact ⟨rfl, hstarted⟩
    | false => exact ⟨rfl, h⟩

theorem forgetTracking (h : Delayed delay r r') :
    Delayed delay r.forgetTracking r'.forgetTracking :=
  (h.redated { r.dates with firedAt := [] } { r'.dates with firedAt := [] }
    { h.dates with firedAt := .nil }).aloof (f := fun r => { r with met := [] }) fun _ _ => rfl

theorem destroy (h : Delayed delay r r') : Delayed delay r.destroy r'.destroy :=
  h.stop.forgetTracking.withLoop fun l => { l with tickListeners := [], errorListeners := [] }

theorem close (h : Delayed delay r r') : Delayed delay r.close r'.close :=
  (h.aloof (f := fun r => { r with closed := true }) fun _ _ => rfl).destroy

end Delayed

theorem initial_agree {now now' : Float} (hnow : DelayedReading delay now now') (d : Definition)
    (source : Source) : Agree Same (State.Delayed delay) (State.initial d now)
      (State.initial d now') source source := by
  unfold State.initial
  split
  · exact agree_pure (State.fresh_delayed hnow _ _) rfl
  · refine Agree.bind (agree_refl _ rfl) ?_
    rintro _ values source₁ _ rfl rfl
    exact agree_pure (State.fresh_delayed hnow _ _) rfl

theorem create_delayed (d : Definition) (o : Options) {now' : Float}
    (hnow : DelayedClock delay o.clock now') :
    Answered (fun r r' => Delayed delay r r' ∧ r.clock = o.clock ∧ r'.clock = now') (create d o)
      (create d { o with clock := now' }) := by
  have hinitial := initial_agree hnow.later d (o.sourceFor d)
  unfold Agree at hinitial
  have hsource : Options.sourceFor { o with clock := now' } d = o.sourceFor d := rfl
  unfold create
  rw [hsource]
  generalize State.initial d o.clock (o.sourceFor d) = x,
    State.initial d now' (o.sourceFor d) = x' at hinitial ⊢
  cases hinitial with
  | error fault _ => exact .error fault
  | ok hs hsource =>
    cases hsource
    refine (Answered.of_eq rfl).bind ?_
    rintro timestep _ rfl
    exact .ok ⟨⟨rfl, hnow, hs, .nil, .nil, .nil, .nil, .nil⟩, rfl, rfl⟩

namespace Delayed

theorem renew (h : Delayed delay r r') :
    Agree (Delayed delay) (fun _ _ => True) Room.renew Room.renew r r' := by
  have hsource : r'.source = r.source := h.same (·.source) fun _ _ => rfl
  refine agree_get_bind ?_
  rw [h.definition]
  have hinitial : Agree (Delayed delay) (State.Delayed delay)
      (Task.on source (fun r source => { r with source }) (State.initial r.definition r.clock))
      (Task.on source (fun r source => { r with source }) (State.initial r.definition r'.clock))
      r r' := by
    refine Agree.on (Q := Same) ?_ fun source _ hsame => ?_
    · rw [hsource]
      exact initial_agree h.clock.later r.definition r.source
    · cases hsame
      exact h.withSource source
  exact hinitial.bind fun s s' r₁ r₁' hs h₁ =>
    agree_modify (h₁.redated { r₁.dates with state := s, recent := #[] }
      { r₁'.dates with state := s', recent := #[] } { h₁.dates with state := hs, recent := .nil })

theorem reset (h : Delayed delay r r') :
    Agree (Delayed delay) (fun _ _ => True) Room.reset Room.reset r r' :=
  (agree_modify h.stop).bind fun _ _ _ _ _ h₁ => h₁.renew.bind fun _ _ r₂ r₂' _ h₂ =>
    (agree_modify (h₂.redated { r₂.dates with cooldowns := [], history := #[] }
      { r₂'.dates with cooldowns := [], history := #[] }
      { h₂.dates with cooldowns := .nil, history := .nil })).bind
        fun _ _ _ _ _ h₃ => agree_modify h₃.forgetTracking

/-! ### What players do -/

theorem addPlayer (h : Delayed delay r r') (data : Table Json) :
    Agree (Delayed delay) (Player.Delayed delay) (Room.addPlayer data) (Room.addPlayer data)
      r r' := by
  refine (agree_modify (h.aloof (f := fun r => { r with ids := r.ids + 1 })
    fun _ _ => rfl)).bind fun _ _ r₁ r₁' _ h₁ => agree_get_bind ?_
  have hids : r₁'.ids = r₁.ids := h₁.same (·.ids) fun _ _ => rfl
  refine Agree.bind_same (agree_look_same rfl h₁) fun _ _ _ h₂ => ?_
  rw [hids]
  refine h₂.change ⟨rfl, h₁.clock.later, h₁.clock.later⟩ ?_
  exact h₂.state.withPlayers (h₂.state.players.put _ ⟨rfl, h₁.clock.later, h₁.clock.later⟩)

theorem removePlayer (h : Delayed delay r r') (id : Json) :
    Agree (Delayed delay) Same (Room.removePlayer id) (Room.removePlayer id) r r' := by
  obtain ⟨hremoved, hs⟩ := h.state.removePlayer id
  refine Agree.bind_same (h.change hremoved hs) fun removed _ _ h₁ => ?_
  cases removed with
  | true =>
    exact (agree_modify (h₁.withCooldowns (h₁.cooldowns.drop _))).bind
      fun _ _ _ _ _ h₂ => agree_pure rfl h₂
  | false => exact agree_pure rfl h₁

theorem record {e e' : Execution} (h : Delayed delay r r') (he : Execution.Delayed delay e e') :
    Delayed delay (record e r) (record e' r') := by
  exact (h.withState (h.state.recorded he)).redated
    { r.dates with
      state := r.state.recorded e, history := r.history.push e, recent := r.recent.push e }
    { r'.dates with
      state := r'.state.recorded e', history := r'.history.push e', recent := r'.recent.push e' }
    { h.dates with
      state := h.state.recorded he
      history := forall₂_push h.dates.history he
      recent := forall₂_push h.dates.recent he }

theorem process (h : Delayed delay r r') (action player parameters : Json) :
    Execution.Delayed delay (Room.process action player parameters r).1
        (Room.process action player parameters r').1 ∧
      Delayed delay (Room.process action player parameters r).2
        (Room.process action player parameters r').2 := by
  have hattempt : Agree (Bench.Delayed delay) (DelayedResult delay)
      (Action.attempt r.definition r.clock action player (parametersOf parameters).2)
      (Action.attempt r'.definition r'.clock action player (parametersOf parameters).2)
      (r.bench (parametersOf parameters).1) (r'.bench (parametersOf parameters).1) := by
    have hbench : Bench.Delayed delay (r.bench (parametersOf parameters).1)
        (r'.bench (parametersOf parameters).1) := ⟨h.state, h.cooldowns, rfl⟩
    rw [h.definition]
    exact Action.attempt_agree hbench h.clock action player _
  obtain ⟨hanswer, hends⟩ := hattempt.outcome
  unfold Room.process
  dsimp only
  generalize (Action.attempt r.definition r.clock action player _).outcome _ = x,
    (Action.attempt r'.definition r'.clock action player _).outcome _ = x' at hanswer hends ⊢
  obtain ⟨result, b⟩ := x
  obtain ⟨result', b'⟩ := x'
  dsimp only at hanswer hends ⊢
  rw [hends.parameters]
  have he := Execution.delayed_of_result action player b.parameters h.clock.later
    (DelayedResult.of_answered hanswer)
  exact ⟨he, ((h.withState hends.state).withCooldowns hends.cooldowns).record he⟩

theorem submit (h : Delayed delay r r') (action player parameters : Json) :
    Agree (Delayed delay) (Execution.Delayed delay) (Room.submit action player parameters)
      (Room.submit action player parameters) r r' := by
  have hclosed : r'.closed = r.closed := h.same (·.closed) fun _ _ => rfl
  have hid : r'.id = r.id := h.same (·.id) fun _ _ => rfl
  have hprocess {r₁ r₁' : Room} (h₁ : Delayed delay r₁ r₁') :=
    agree_modifyGet (h₁.process action player parameters).1 (h₁.process action player parameters).2
  refine agree_get_bind ?_
  rw [hclosed]
  split
  · refine agree_get_bind ?_
    rw [hid]
    exact (agree_throw (V := Same) _ h).bind fun _ _ _ _ _ h₁ => hprocess h₁
  · exact hprocess h

end Delayed
end Room
end Gameroom
