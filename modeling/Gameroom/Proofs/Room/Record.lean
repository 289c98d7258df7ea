import Gameroom.Proofs.Room.Requests
import Gameroom.Proofs.State.Course

/-!
The executions that a room returns while players act and time passes are the ones that it records,
in both histories and on the course of its state.
-/

namespace Gameroom.Room

/-! ### What is returned -/

/-- The executions that actions asked for in order return. -/
def submitted : List (Json × Json × Json) → Room → List Execution
  | [], _ => []
  | (action, player, parameters) :: rest, r =>
    if r.closed then []
    else (process action player parameters r).1 ::
      submitted rest (process action player parameters r).2

/-- The execution that a listener is returned when it asks for an action. -/
def reacted (l : Registered Reaction) (r : Room) : List Execution :=
  match l.listener with
  | .act action player => if r.closed then [] else [(process action player .null r).1]
  | _ => []

/-- The executions that listeners are returned on the news of a tick. -/
def told (news : News) (r : Room) : List (Registered Reaction) → List Execution
  | [] => []
  | l :: rest => reacted l r ++ told (react l news r).1 (react l news r).2 rest

/-- The executions that listeners are returned on a tick. -/
def ticked (r : Room) : List Execution :=
  match (Pulse.run r.definition r.clock r.gated).outcome r.pulse with
  | (.error _, _) => []
  | (.ok (), p) =>
    let r := r.afterPulse p
    let r := { r with loop := { r.loop with ticksExecuted := r.loop.ticksExecuted + 1 } }
    told ⟨p.state.tick, p.state, p.state.vars.mapValues .number⟩ r r.loop.tickListeners

/-- The executions that listeners are returned on several ticks. -/
def tickedOver : Nat → Room → List Execution
  | 0, _ => []
  | n + 1, r => ticked r ++ tickedOver n r.tick

/-- The executions that listeners are returned while time is spent. -/
def spent : Nat → Room → List Execution
  | 0, _ => []
  | fuel + 1, r =>
    if r.loop.timestep ≤ r.loop.accumulator ∧ r.loop.running then
      ticked r ++ spent fuel r.spendOne
    else []

/-- The executions that listeners are returned on a frame. -/
def framed (r : Room) : List Execution :=
  if r.loop.running then
    match r.loop.elapsed >>= Json.toFloat with
    | .error _ => []
    | .ok x => spent (r.afterTime x).loop.ticksWithin (r.afterTime x)
  else []

/-- The executions that listeners are returned while the host clock moves on. -/
def hosted (ms : Json) (r : Room) : List Execution :=
  match Json.addedTo r.loop.host ms with
  | .error _ => []
  | .ok host =>
    if r.threaded && r.loop.running then framed { r with loop := { r.loop with host } } else []

/-- The executions that a request returns, to the one who asks and to listeners. -/
def returned (q : Request) (r : Room) : List Execution :=
  match q with
  | .act action player parameters => submitted [(action, player, parameters)] r
  | .submit asked => submitted asked r
  | .process action player parameters => [(process action player parameters r).1]
  | .forceTick => ticked r
  | .forceTicks count => tickedOver count r
  | .frame => framed r
  | .advanceHost ms => hosted ms r
  | _ => []

/-- The executions that requests return one after the other. -/
def returnedOver : List Request → Room → List Execution
  | [], _ => []
  | q :: qs, r => returned q r ++ returnedOver qs ((perform q).outcome r).2

/-! ### What is recorded -/

/-- A room after some of its course: these executions were recorded meanwhile. -/
structure Played (es : List Execution) (r r' : Room) : Prop where
  definition : r'.definition = r.definition
  history : r'.history.toList = r.history.toList ++ es
  recent : r'.recent.toList = r.recent.toList ++ es
  closed : r'.closed = r.closed
  source : r'.source.given? = r.source.given?
  course : State.Course r.definition es r.state r'.state

variable {r r' r'' : Room} {es es' : List Execution}

theorem Played.trans (h : Played es r r') (h' : Played es' r' r'') : Played (es ++ es') r r'' where
  definition := h'.definition.trans h.definition
  history := by rw [h'.history, h.history, List.append_assoc]
  recent := by rw [h'.recent, h.recent, List.append_assoc]
  closed := h'.closed.trans h.closed
  source := h'.source.trans h.source
  course := h.course.trans (h.definition ▸ h'.course)

theorem played_of_course {s : State} (h : State.Course r.definition [] r.state s) :
    Played [] r { r with state := s } :=
  ⟨rfl, (List.append_nil _).symm, (List.append_nil _).symm, rfl, rfl, h⟩

theorem Played.refl (r : Room) : Played [] r r := played_of_course (.refl r.state)

theorem Played.idle (h : Played es r r') (h' : Played [] r' r'') : Played es r r'' := by
  simpa using h.trans h'

theorem played_of_same (hdefinition : r'.definition = r.definition)
    (hhistory : r'.history = r.history) (hrecent : r'.recent = r.recent)
    (hclosed : r'.closed = r.closed) (hsource : r'.source = r.source)
    (hstate : r'.state = r.state) : Played [] r r' := by
  refine ⟨hdefinition, ?_, ?_, hclosed, congrArg _ hsource, ?_⟩
  · rw [hhistory, List.append_nil]
  · rw [hrecent, List.append_nil]
  · rw [hstate]
    exact .refl r.state

theorem withLoop_played (r : Room) (l : Loop) : Played [] r { r with loop := l } :=
  played_of_same rfl rfl rfl rfl rfl rfl

theorem record_state (e : Execution) (r : Room) : (record e r).state = r.state.recorded e := by
  obtain ⟨action, player, parameters, time, result⟩ := e
  cases action <;> rfl

theorem process_played (action player parameters : Json) (r : Room) :
    Played [(process action player parameters r).1] r (process action player parameters r).2 := by
  have hattempt : State.Course r.definition [] r.state
      (r.attempted action player parameters).2.state :=
    Action.attempt_moves (Effect.obey_course _ _) action player _
      (r.bench (parametersOf parameters).1)
  refine ⟨rfl, Array.toList_push, Array.toList_push, rfl, rfl, hattempt.trans ?_⟩
  have hrecord := State.Deed.record (d := r.definition) (process action player parameters r).1
    (r.attempted action player parameters).2.state
  exact record_state (process action player parameters r).1 { r with
    state := (r.attempted action player parameters).2.state
    cooldowns := (r.attempted action player parameters).2.cooldowns } ▸ hrecord.course

/-! ### The loop -/

theorem submit_open {action player parameters : Json} (hopen : r.closed = false) :
    submit action player parameters r =
      .ok (process action player parameters r).1 (process action player parameters r).2 := by
  simp only [submit, bind, EStateM.bind, get, getThe, MonadStateOf.get, EStateM.get, hopen]
  rfl

theorem submit_closed {action player parameters : Json} (hclosed : r.closed = true) :
    submit action player parameters r = .error (.roomClosed r.id) r := by
  simp only [submit, bind, EStateM.bind, get, getThe, MonadStateOf.get, EStateM.get, hclosed]
  rfl

theorem halt_played (r : Room) : Played [] r r.halt := by
  unfold halt
  split
  · exact withLoop_played r _
  · exact .refl r

theorem stop_played (r : Room) : Played [] r r.stop := by
  unfold stop
  split
  · exact (halt_played r).trans (played_of_course (State.pause_course _))
  · exact .refl r

theorem start_played (r : Room) : Played [] r r.start.2 := by
  have h := (State.Deed.move (d := r.definition) .running r.state).course
  unfold start State.start
  unfold State.setStatus at h ⊢
  split
  · exact .refl r
  · split_ifs at h ⊢
    · exact ((played_of_course h).trans (withLoop_played _ r.loop.started) :)
    · exact .refl r

theorem note_played (key : String) (news : News) (vars : Table Json) (r : Room) :
    Played [] r (r.note key news vars) :=
  played_of_same rfl rfl rfl rfl rfl rfl

theorem refusal_played (key : String) (news : News) (fault : Fault) (r : Room) :
    Played [] r (r.refusal key news fault) :=
  played_of_same rfl rfl rfl rfl rfl rfl

theorem tellError_played (fault : Fault) (r : Room) : Played [] r (r.tellError fault) :=
  played_of_same rfl rfl rfl rfl rfl rfl

theorem react_played (l : Registered Reaction) (news : News) (r : Room) :
    Played (reacted l r) r (react l news r).2 := by
  obtain ⟨key, current, listener⟩ := l
  cases listener with
  | record => exact note_played key news _ r
  | refuseSome refused =>
    unfold react reacted
    dsimp only
    split
    · exact refusal_played _ _ _ r
    · exact note_played key news _ r
  | stopAt tick =>
    unfold react reacted
    dsimp only
    split
    · split
      · exact (stop_played r).trans (note_played _ _ _ _)
      · exact note_played key news _ r
    · exact refusal_played _ _ _ r
  | overwrite name value =>
    unfold react reacted
    dsimp only
    split
    · exact note_played _ _ _ r
    · exact refusal_played _ _ _ r
  | act action player =>
    unfold react reacted
    cases hclosed : r.closed with
    | true =>
      simp only [submit_closed hclosed]
      exact refusal_played _ _ _ r
    | false =>
      simp only [submit_open hclosed]
      exact (process_played action player .null r).trans (note_played _ _ _ _)

theorem tellTick_played (ls : List (Registered Reaction)) (news : News) (r : Room) :
    Played (told news r ls) r (tellTick news r ls) := by
  induction ls generalizing news r with
  | nil => exact .refl r
  | cons l rest ih => exact (react_played l news r).trans (ih _ _)

theorem afterPulse_played {p : Pulse}
    (h : Pulse.Via (State.Course r.definition []) r.pulse.counted p) :
    Played [] r (r.afterPulse p) :=
  ⟨rfl, (List.append_nil _).symm, (List.append_nil _).symm, rfl, h.source,
    (State.Deed.count r.state).course.trans h.state⟩

theorem tick_played (r : Room) : Played (ticked r) r r.tick := by
  have h := Pulse.run_moves (Effect.obey_course r.definition r.clock) r.gated r.pulse
  unfold ticked tick
  cases hp : (Pulse.run r.definition r.clock r.gated).outcome r.pulse with
  | mk result p =>
    rw [hp] at h
    have hafter := afterPulse_played (r := r) h
    cases result with
    | error fault => exact hafter.trans (tellError_played fault _)
    | ok done =>
      have hcount := hafter.idle (withLoop_played (r.afterPulse p)
        { r.loop with ticksExecuted := r.loop.ticksExecuted + 1 })
      dsimp only
      split
      · exact (hcount.trans (tellTick_played _ _ _)).idle (halt_played _)
      · exact hcount.trans (tellTick_played _ _ _)

theorem ticks_played (n : Nat) (r : Room) : Played (tickedOver n r) r (ticks n r) := by
  induction n generalizing r with
  | zero => exact .refl r
  | succ n ih => exact (tick_played r).trans (ih r.tick)

theorem spendOne_played (r : Room) : Played (ticked r) r r.spendOne :=
  (tick_played r).idle (withLoop_played r.tick _)

theorem spend_played (fuel count : Nat) (r : Room) :
    Played (spent fuel r) r (spend fuel count r).2 := by
  induction fuel generalizing count r with
  | zero => exact .refl r
  | succ fuel ih =>
    rw [spend_succ, spent]
    split_ifs
    · exact (spendOne_played r).trans (ih _ _)
    · exact .refl r

theorem frame_played (r : Room) : Played (framed r) r (frame.outcome r).2 := by
  unfold framed Task.outcome
  cases h : r.loop.running with
  | false =>
    rw [frame_stopped h]
    exact .refl r
  | true =>
    rw [frame_running h]
    cases r.loop.elapsed with
    | error fault => exact .refl r
    | ok elapsed =>
      simp only [bind, Except.bind]
      cases elapsed.toFloat with
      | error fault => exact withLoop_played r _
      | ok x => exact (withLoop_played r _).trans (spend_played _ 0 (r.afterTime x))

theorem advanceHost_played (ms : Json) (r : Room) :
    Played (hosted ms r) r ((advanceHost ms).outcome r).2 := by
  unfold hosted
  cases hhost : Json.addedTo r.loop.host ms with
  | error fault =>
    rw [advanceHost_error hhost]
    exact .refl r
  | ok host =>
    have hmoved := withLoop_played r { r.loop with host }
    rw [advanceHost_ok hhost]
    dsimp only
    split_ifs
    · exact hmoved.trans (frame_played _)
    · exact hmoved

/-! ### Requests -/

theorem submit_played (action player parameters : Json) (r : Room) :
    Played (submitted [(action, player, parameters)] r) r
      ((submit action player parameters).outcome r).2 := by
  unfold submitted
  cases hclosed : r.closed with
  | true =>
    rw [Task.outcome_error (submit_closed hclosed)]
    exact .refl r
  | false =>
    rw [Task.outcome_ok (submit_open hclosed)]
    exact process_played action player parameters r

theorem submitAll_played (asked : List (Json × Json × Json)) (r : Room) :
    Played (submitted asked r) r ((submitAll asked).outcome r).2 := by
  induction asked generalizing r with
  | nil => exact .refl r
  | cons first rest ih =>
    obtain ⟨action, player, parameters⟩ := first
    unfold submitted submitAll
    cases hclosed : r.closed with
    | true =>
      rw [Task.outcome_error (Task.bind_error (submit_closed hclosed))]
      exact .refl r
    | false =>
      have hend : (submit action player parameters >>= fun e =>
          submitAll rest >>= fun es => pure (e :: es)).outcome r =
          (submitAll rest >>= fun es => pure ((process action player parameters r).1 :: es)).outcome
            (process action player parameters r).2 := by
        simp only [Task.outcome, Task.bind_ok (submit_open hclosed)]
      rw [hend, outcome_bind_pure]
      exact (process_played action player parameters r).trans (ih _)

/-- Whether players act or time passes on a request. -/
def Request.isCourse : Request → Bool
  | .act .. | .submit .. | .process .. | .advanceHost .. | .frame | .forceTick | .forceTicks ..
  | .start | .resume | .stop | .pause => true
  | _ => false

/-- What a request is for. Whatever is to be shown of every request is shown for each aim: most
requests look, set up the loop, edit the state or belong to the course of the game. -/
inductive Request.Aim : Request → Prop
  | looks {q : Request} (hidle : q.isIdle) (hset : q.setsUp = false) : Aim q
  | setsUp {q : Request} (hidle : q.isIdle) (hset : q.setsUp) : Aim q
  | edits {q : Request} (hedits : q.edits) : Aim q
  | course {q : Request} (hcourse : q.isCourse) : Aim q
  | clock {q : Request} (hclock : q.setsClock) : Aim q
  | cooldowns {q : Request} (hhandles : q.handlesCooldowns) : Aim q
  | join (data : Json) : Aim (.addPlayer data)
  | leave (id : Json) : Aim (.removePlayer id)
  | drop (id : Json) : Aim (.dropPlayer id)
  | renew : Aim .renew
  | reset : Aim .reset
  | destroy : Aim .destroy
  | close : Aim .close
  | count : Aim .incrementTick
  | clearHistory : Aim .clearHistory
  | clearRecent : Aim .clearRecent

theorem Request.aim (q : Request) : q.Aim := by
  cases q
  all_goals first
    | exact .looks rfl rfl
    | exact .setsUp rfl rfl
    | exact .edits rfl
    | exact .course rfl
    | exact .clock rfl
    | exact .cooldowns rfl
    | exact .join _
    | exact .leave _
    | exact .drop _
    | exact .renew
    | exact .reset
    | exact .destroy
    | exact .close
    | exact .count
    | exact .clearHistory
    | exact .clearRecent

/-- What players do and the time that passes is on the course of the game, and what it returns is
recorded. -/
theorem perform_played {q : Request} (hq : q.isCourse) (r : Room) :
    Played (returned q r) r ((perform q).outcome r).2 := by
  cases q with
  | act action player parameters =>
    rw [perform, outcome_bind_pure]
    exact submit_played action player parameters r
  | submit asked =>
    rw [perform, outcome_bind_pure]
    exact submitAll_played asked r
  | process action player parameters => exact process_played action player parameters r
  | advanceHost ms =>
    rw [perform, outcome_bind_pure]
    exact advanceHost_played ms r
  | frame =>
    rw [perform, outcome_bind_pure]
    exact frame_played r
  | forceTick => exact tick_played r
  | forceTicks count =>
    rw [forceTicks_end]
    exact ticks_played count r
  | start | resume => exact start_played r
  | stop | pause => exact stop_played r
  | _ => cases hq

end Gameroom.Room
