import Gameroom.Proofs.Room.Edit
import Gameroom.Proofs.Room.Move

/-! Every request but those that set the clock is answered by steps that it permits. -/

namespace Gameroom.Room

abbrev Answers (q : Request) : Room → Room → Prop := Leads Step q.permits

theorem Goes.answers {r r' : Room} (q : Request) (h : Goes r r') : Answers q r r' :=
  h.weaken (permits_of_ordinary q)

/-! ### Requests without a tick -/

theorem submitAll_passes (asked : List (Json × Json × Json)) (r : Room) :
    (submitAll asked).Moves (Passes 0) r :=
  submitAll_keeps (fun _ _ _ r => (Move.act _ _ _ r).passes) asked r

theorem addPlayer_cases (data : Table Json) (r : Room) :
    (∃ fault, addPlayer data r = .error fault { r with ids := r.ids + 1 }) ∨
      ∃ p : Player, p.id = playerId (r.ids + 1) ∧ isScore p.score = .ok true ∧ p.actions = #[] ∧
        addPlayer data r = .ok p { r with
          ids := r.ids + 1
          state := { r.state with players := r.state.players.put p.id p } } := by
  simp only [addPlayer, bind, EStateM.bind, modify, modifyGet, MonadStateOf.modifyGet,
    EStateM.modifyGet, get, getThe, MonadStateOf.get, EStateM.get, Task.look]
  cases hscore : isScore ((data.get? "score").getD (.int 0)) with
  | error fault => exact .inl ⟨fault, rfl⟩
  | ok scored =>
    refine .inr ⟨⟨playerId (r.ids + 1), _, _, _, _, _, _⟩, rfl, ?_, rfl, rfl⟩
    cases scored with
    | false => rfl
    | true => exact hscore

theorem join_cases (data : Json) (r : Room) :
    (∃ fault ids, (perform (.addPlayer data)).outcome r = (.error fault, { r with ids })) ∨
      ∃ p : Player, isScore p.score = .ok true ∧ p.actions = #[] ∧
        (perform (.addPlayer data)).outcome r = (.ok (.document p.toJson), { r with
          ids := r.ids + 1
          state := { r.state with players := r.state.players.put p.id p } }) := by
  unfold Task.outcome
  cases hdata : playerData data with
  | error fault =>
    have hlook : Task.look (fun _ => playerData data) r = .error fault r := Task.look_error hdata
    simp only [perform, Task.bind_error hlook]
    exact .inl ⟨fault, r.ids, rfl⟩
  | ok fields =>
    have hlook : Task.look (fun _ => playerData data) r = .ok fields r := Task.look_ok hdata
    simp only [perform, Task.bind_ok hlook]
    rcases addPlayer_cases fields r with ⟨fault, h⟩ | ⟨p, -, hscore, hactions, h⟩
    · rw [Task.bind_error h]
      exact .inl ⟨fault, r.ids + 1, rfl⟩
    · rw [Task.bind_ok h]
      exact .inr ⟨p, hscore, hactions, rfl⟩

theorem addPlayer_passes (data : Table Json) (r : Room) :
    (addPlayer data).Moves (Passes 0) r := by
  rw [Task.Moves]
  rcases addPlayer_cases data r with ⟨fault, h⟩ | ⟨p, hid, -, -, h⟩
  · rw [Task.outcome_error h]
    exact aside_passes ⟨rfl, rfl, rfl, rfl, rfl, Nat.le_succ _⟩ rfl
  · rw [Task.outcome_ok h]
    exact (Move.join hid).passes

theorem removePlayer_cases (id : Json) (r : Room) :
    removePlayer id r = .ok false r ∨
      ∃ name, id = .text name ∧ removePlayer id r = .ok true { r with
        state := { r.state with players := r.state.players.drop name }
        cooldowns := r.cooldowns.drop name } := by
  cases id with
  | text name =>
    cases hthere : r.state.players.has name with
    | false =>
      refine .inl ?_
      simp only [removePlayer, change, State.removePlayer, hthere, bind, EStateM.bind, modifyGet,
        MonadStateOf.modifyGet, EStateM.modifyGet]
      rfl
    | true =>
      refine .inr ⟨name, rfl, ?_⟩
      simp only [removePlayer, change, State.removePlayer, hthere, bind, EStateM.bind, modifyGet,
        MonadStateOf.modifyGet, EStateM.modifyGet]
      rfl
  | _ => exact .inl rfl

theorem removePlayer_passes (id : Json) (r : Room) : (removePlayer id).Moves (Passes 0) r := by
  rw [Task.Moves]
  rcases removePlayer_cases id r with h | ⟨name, -, h⟩
  · rw [Task.outcome_ok h]
    exact .refl r
  · rw [Task.outcome_ok h]
    exact (Move.leave name r).passes

theorem dropPlayer_passes (id : Json) (r : Room) :
    (change (State.removePlayer id)).Moves (Passes 0) r := by
  refine Task.moves_modifyGet ?_
  cases id with
  | text id =>
    cases hid : r.state.players.has id with
    | false =>
      simp only [State.removePlayer, hid]
      exact Passes.refl r
    | true =>
      simp only [State.removePlayer, hid]
      exact (Move.drop id r).passes
  | _ => exact Passes.refl r

namespace Request

/-- Whether a request needs no step of its own kind. -/
def isOrdinary (q : Request) : Bool :=
  !q.setsClock && !q.restarts && !q.handlesCooldowns && !q.clearsHistory

def mayTick : Request → Bool
  | .advanceHost .. | .incrementTick | .frame | .forceTick | .forceTicks .. => true
  | _ => false

/-- The ticks of a host clock that moves on: those of a frame, if the loop follows it by itself. -/
def hostTicks (ms : Json) (r : Room) : Nat :=
  match Json.addedTo r.loop.host ms with
  | .error _ => 0
  | .ok host => if r.threaded && r.loop.running then
      frameTicks { r with loop := { r.loop with host } } else 0

/-- The ticks that a request counts: one by one, or those of a frame. -/
def counted (q : Request) (r : Room) : Nat :=
  match q with
  | .incrementTick | .forceTick => 1
  | .forceTicks count => count
  | .frame => r.frameTicks
  | .advanceHost ms => hostTicks ms r
  | _ => 0

end Request

theorem Edited.passes {r r' : Room} (h : Edited r r') : Passes 0 r r' := by
  obtain ⟨s, hs, rfl⟩ := h
  exact evolves_passes hs.evolves

theorem Idle.passes {r r' : Room} (h : Idle r r') : Passes 0 r r' :=
  aside_passes h.aside h.running

theorem perform_quiet (q : Request) (r : Room) (h : q.isOrdinary) (hquiet : q.mayTick = false) :
    (perform q).Moves (Passes 0) r := by
  cases hedits : q.edits with
  | true => exact (perform_edited hedits r).passes
  | false =>
    cases hidle : q.isIdle with
    | true => exact (perform_idle hidle r).passes
    | false =>
      cases q with
      | addPlayer data =>
        exact (Task.moves_look _ r).bind fun data r₁ _ => answered (addPlayer_passes data r₁)
      | removePlayer id => exact answered (removePlayer_passes id r)
      | dropPlayer id => exact answered (dropPlayer_passes id r)
      | act action player parameters => exact answered (submit_passes action player parameters r)
      | submit asked => exact answered (submitAll_passes asked r)
      | process action player parameters =>
        exact answered (Task.moves_modifyGet (Move.act action player parameters r).passes)
      | clearRecent => exact alter_moves (aside_passes ⟨rfl, rfl, rfl, rfl, rfl, le_rfl⟩ rfl)
      | close => exact alter_moves (close_passes r)
      | start | resume => exact answered (Task.moves_modifyGet (start_passes r))
      | stop | pause => exact alter_moves (stop_passes r)
      | destroy => exact alter_moves (destroy_passes r)
      | advanceClock | setClock | clearHistory | setCooldown | clearCooldown | clearPlayerCooldowns
      | clearAllCooldowns | renew | reset => cases h
      | advanceHost | incrementTick | frame | forceTick | forceTicks => cases hquiet
      | setVariable | modifyVariable | setProperty | updatePlayer | updateScore | addLog | addEvent
      | apply | applyAll | setStatus | startGame | pauseGame | resumeGame | endGame => cases hedits
      | _ => cases hidle

/-! ### Requests with ticks -/

theorem outcome_bind_pure {α β : Type} (t : Task Room α) (f : α → β) (r : Room) :
    ((do return f (← t) : Task Room β).outcome r).2 = (t.outcome r).2 := by
  unfold Task.outcome
  cases h : t r with
  | error fault r' => rw [Task.bind_error h]
  | ok a r' => rw [Task.bind_ok h]; rfl

theorem advanceHost_passes (ms : Json) (r : Room) :
    Passes (Request.hostTicks ms r) r ((advanceHost ms).outcome r).2 := by
  unfold Request.hostTicks
  cases hhost : Json.addedTo r.loop.host ms with
  | error fault =>
    rw [advanceHost_error hhost]
    exact .refl r
  | ok host =>
    have hmoved : Passes 0 r { r with loop := { r.loop with host } } := withLoop_passes r _ rfl
    rw [advanceHost_ok hhost]
    dsimp only
    split_ifs with h
    · have hframe := hmoved.trans (frame_passes { r with loop := { r.loop with host } })
      rwa [Nat.zero_add] at hframe
    · exact hmoved

theorem forceTicks_end (count : Nat) (r : Room) :
    ((perform (.forceTicks count)).outcome r).2 = ticks count r := by
  simp only [perform, Task.outcome, modify, modifyGet, MonadStateOf.modifyGet,
    EStateM.modifyGet, bind, EStateM.bind]
  by_cases hcount : count = 0
  · rw [if_pos hcount]
    rfl
  · rw [if_neg hcount]
    rfl

theorem perform_passes (q : Request) (r : Room) (h : q.isOrdinary) :
    Passes (q.counted r) r ((perform q).outcome r).2 := by
  cases q with
  | advanceHost ms =>
    rw [perform, outcome_bind_pure]
    exact advanceHost_passes ms r
  | frame =>
    rw [perform, outcome_bind_pure]
    exact frame_passes r
  | incrementTick => exact .count (.refl r.counted)
  | forceTick => exact tick_passes r
  | forceTicks count =>
    rw [forceTicks_end]
    exact ticks_passes count r
  | _ => exact perform_quiet _ r h rfl

/-! ### Requests with steps of their own -/

theorem aside_answers {q : Request} {r r' : Room} (h : Aside r r') : Answers q r r' :=
  h.goes.answers q

theorem step_answers {q : Request} {k : Kind} {r r' : Room} (h : Step k r r') (hk : q.permits k) :
    Answers q r r' := .single hk h

/-- The state is made anew, and then nothing happens that a game is played with. -/
def Restarts (r r' : Room) : Prop := ∃ r₁ r₂, Goes r r₁ ∧ Step .restarted r₁ r₂ ∧ Aside r₂ r'

theorem Restarts.answers {q : Request} (hq : q.restarts) {r r' : Room} (h : Restarts r r') :
    Answers q r r' := by
  obtain ⟨r₁, r₂, hgoes, hstep, haside⟩ := h
  exact ((hgoes.answers q).trans (step_answers hstep hq)).trans (aside_answers haside)

theorem renew_outcome (r : Room) :
    (∃ fault r', renew r = .error fault r' ∧ Goes r r') ∨
      ∃ r', renew r = .ok () r' ∧ Restarts r r' := by
  cases hs : State.initial r.definition r.clock r.source with
  | error fault source =>
    exact .inl ⟨fault, _, renew_error hs, Aside.goes ⟨rfl, rfl, rfl, rfl, rfl, le_rfl⟩⟩
  | ok s source =>
    exact .inr ⟨_, renew_ok hs, r, _, .refl r, .renew hs, ⟨rfl, rfl, rfl, rfl, rfl, le_rfl⟩⟩

theorem reset_outcome (r : Room) :
    (∃ fault r', reset r = .error fault r' ∧ Goes r r') ∨
      ∃ r', reset r = .ok () r' ∧ Restarts r r' := by
  have hstop := (stop_passes r).goes
  -- Only the start of a new state can fail, and then nothing else has happened but the stop.
  cases hs : State.initial r.stop.definition r.stop.clock r.stop.source with
  | error fault source =>
    exact .inl ⟨fault, _, reset_error (renew_error hs),
      hstop.trans (Aside.goes ⟨rfl, rfl, rfl, rfl, rfl, le_rfl⟩)⟩
  | ok s source =>
    exact .inr ⟨_, reset_ok (renew_ok hs), r.stop, _, hstop, .reset hs,
      ⟨rfl, rfl, rfl, rfl, rfl, le_rfl⟩⟩

theorem reset_end (r : Room) :
    (∃ fault source, State.initial r.definition r.clock r.source = .error fault source ∧
      (perform .reset).outcome r = (.error fault, { r.stop with source })) ∨
    ∃ s source, State.initial r.definition r.clock r.source = .ok s source ∧
      (perform .reset).outcome r = (.ok .null, forgetTracking { r.stop with
        state := s, source, recent := #[], cooldowns := [], history := #[] }) := by
  have hstop : State.initial r.stop.definition r.stop.clock r.stop.source =
      State.initial r.definition r.clock r.source := by
    unfold stop halt
    split_ifs <;> rfl
  cases hs : State.initial r.definition r.clock r.source with
  | error fault source =>
    exact .inl ⟨fault, source, rfl,
      Task.outcome_error (Task.bind_error (reset_error (renew_error (hstop.trans hs))))⟩
  | ok s source =>
    exact .inr ⟨s, source, rfl,
      Task.outcome_ok (Task.bind_ok (reset_ok (renew_ok (hstop.trans hs))))⟩

theorem perform_restart {q : Request} (hq : q.restarts) (r : Room) :
    (∃ fault r', (perform q).outcome r = (.error fault, r') ∧ Goes r r') ∨
      ∃ r', (perform q).outcome r = (.ok .null, r') ∧ Restarts r r' := by
  cases q with
  | renew =>
    rcases renew_outcome r with ⟨fault, r', h, hr⟩ | ⟨r', h, hr⟩
    · exact .inl ⟨fault, r', Task.outcome_error (Task.bind_error h), hr⟩
    · exact .inr ⟨r', Task.outcome_ok (Task.bind_ok h), hr⟩
  | reset =>
    rcases reset_outcome r with ⟨fault, r', h, hr⟩ | ⟨r', h, hr⟩
    · exact .inl ⟨fault, r', Task.outcome_error (Task.bind_error h), hr⟩
    · exact .inr ⟨r', Task.outcome_ok (Task.bind_ok h), hr⟩
  | _ => cases hq

theorem restart_moves {q : Request} (hq : q.restarts) (r : Room) :
    (perform q).Moves (Answers q) r := by
  unfold Task.Moves
  rcases perform_restart hq r with ⟨fault, r', h, hr⟩ | ⟨r', h, hr⟩
  · rw [h]
    exact hr.answers q
  · rw [h]
    exact hr.answers hq

def Handled (r r' : Room) : Prop := ∃ cooldowns, r' = { r with cooldowns }

theorem handled (c : Cooldowns) (r : Room) : Handled r { r with cooldowns := c } := ⟨c, rfl⟩

instance : IsPreorder Room Handled where
  refl r := ⟨r.cooldowns, rfl⟩
  trans := by
    rintro r - - ⟨c, rfl⟩ ⟨c', rfl⟩
    exact ⟨c', rfl⟩

theorem perform_handled {q : Request} (hq : q.handlesCooldowns) (r : Room) :
    (perform q).Moves Handled r := by
  cases q with
  | setCooldown action player time =>
    refine (named_moves player r).bind fun player r₁ _ => ?_
    refine Task.Moves.bind (Task.moves_modify (handled _ r₁)) fun _ r₂ _ => ?_
    exact (named_moves action r₂).bind fun action r₃ _ => alter_moves (handled _ r₃)
  | clearCooldown action player =>
    refine (named_moves player r).bind fun player r₁ _ => Task.moves_get_bind ?_
    split
    · exact Task.moves_pure _ r₁
    · exact (named_moves action r₁).bind fun action r₂ _ => alter_moves (handled _ r₂)
  | clearPlayerCooldowns player =>
    refine Task.moves_get_bind ?_
    split
    · exact Task.moves_pure _ r
    · exact (named_moves player r).bind fun player r₁ _ => alter_moves (handled _ r₁)
  | clearAllCooldowns => exact alter_moves (handled _ r)
  | _ => cases hq

theorem perform_moves (q : Request) (r : Room) (hclock : q.setsClock = false) :
    (perform q).Moves (Answers q) r := by
  by_cases hq : q.isOrdinary
  · exact (perform_passes q r hq).goes.answers q
  have hhandled (h : q.handlesCooldowns) : (perform q).Moves (Answers q) r := by
    obtain ⟨c, hc⟩ := perform_handled h r
    rw [Task.Moves, hc]
    exact step_answers (.byHand c r) h
  cases q with
  | advanceClock | setClock => cases hclock
  | renew => exact restart_moves rfl r
  | reset => exact restart_moves rfl r
  | clearHistory => exact alter_moves (step_answers (.clear r) rfl)
  | setCooldown | clearCooldown | clearPlayerCooldowns | clearAllCooldowns => exact hhandled rfl
  | _ => exact absurd rfl hq

theorem setClock_ok {ms : Json} {x : Float} (h : ms.toFloat = .ok x) (r : Room) :
    perform (.setClock ms) r = .ok .null { r with clock := x } := by
  simp only [perform, setClock, bind, EStateM.bind, Task.look, h]
  rfl

theorem advanceClock_ok {r : Room} {ms : Json} {x : Float} (h : Json.addedTo r.clock ms = .ok x) :
    perform (.advanceClock ms) r = .ok (.document (.float x)) { r with clock := x } := by
  simp only [perform, advanceClock, bind, EStateM.bind, Task.look, h]
  rfl

theorem perform_clock (q : Request) (r : Room) (hclock : q.setsClock) :
    ∃ clock, ((perform q).outcome r).2 = { r with clock } := by
  cases q with
  | advanceClock ms =>
    cases h : Json.addedTo r.clock ms with
    | error fault =>
      refine ⟨r.clock, ?_⟩
      simp only [perform, advanceClock, Task.outcome, bind, EStateM.bind, Task.look, h]
    | ok clock => exact ⟨clock, by rw [Task.outcome_ok (advanceClock_ok h)]⟩
  | setClock ms =>
    cases h : ms.toFloat with
    | error fault =>
      refine ⟨r.clock, ?_⟩
      simp only [perform, setClock, Task.outcome, bind, EStateM.bind, Task.look, h]
    | ok clock => exact ⟨clock, by rw [Task.outcome_ok (setClock_ok h r)]⟩
  | _ => cases hclock

end Gameroom.Room
