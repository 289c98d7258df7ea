import Gameroom.Proofs.Room.Driven
import Gameroom.Proofs.Room.Halting
import Gameroom.Proofs.Room.Scores

/-!
What a start that succeeds says. The loop runs afterwards; the game runs too, unless the loop ran
before, for then nothing is done. The two part only by a status that something other than the loop
sets, so where nothing does a start that succeeds always means a game that runs.
-/

namespace Gameroom

def Effect.setsStatus : Effect → Bool
  | setStatus _ => true
  | _ => false

namespace State
variable {d : Definition} {s s' : State}

def SameStatus (s s' : State) : Prop := s'.status = s.status

instance : IsPreorder State SameStatus where
  refl _ := rfl
  trans _ _ _ h h' := h'.trans h

theorem sameStatus_changes {e : Effect} (he : e.setsStatus = false) (h : e.Changes d s s') :
    SameStatus s s' := by
  cases h with
  | setVar h | modifyVar h =>
    obtain ⟨v, n, -, rfl⟩ := setVariable_ok h
    rfl
  | @setEntity target entity properties _ _ =>
    have hframe := (setProperties_same entity properties s).frame
    exact (congrArg status hframe :)
  | addEvent h =>
    obtain ⟨timestamp, -, h⟩ := ok_of_bind h
    cases h
    rfl
  | setStatus => cases he
  | _ => rfl

theorem admits_sameStatus (d : Definition) : Admits d (·.setsStatus = false) SameStatus where
  effect := sameStatus_changes
  openEntity _ _ := rfl
  win _ _ := rfl

def ToRunning (s s' : State) : Prop := s'.status = s.status ∨ s'.status = .running

instance : IsPreorder State ToRunning where
  refl _ := .inl rfl
  trans _ _ _ h h' := h'.elim (fun hsame => h.imp hsame.trans hsame.trans) .inr

theorem admits_toRunning (d : Definition) : Admits d (·.setsStatus = false) ToRunning where
  effect he h := .inl (sameStatus_changes he h)
  openEntity _ _ := .inl rfl
  win _ _ := .inl rfl

theorem recorded_sameStatus (e : Execution) (s : State) : SameStatus s (s.recorded e) := by
  unfold SameStatus recorded listed followed
  cases e.action <;> dsimp only <;> split <;> rfl

end State

namespace Room
open State
variable {d : Definition} {o : Options} {r r' r₀ : Room}

/-- No effect of the definition sets the status, and while the loop runs the game does. -/
structure InStep (r : Room) : Prop where
  effects : ∀ e ∈ r.definition.effects, e.setsStatus = false
  status : r.loop.running → r.state.status = .running

theorem InStep.of_same (h : InStep r) (hdefinition : r'.definition = r.definition)
    (hrunning : r'.loop.running → r.loop.running) (hstatus : SameStatus r.state r'.state) :
    InStep r' :=
  ⟨hdefinition ▸ h.effects, fun hrun => hstatus.trans (h.status (hrunning hrun))⟩

theorem InStep.of_stopped (h : InStep r) (hdefinition : r'.definition = r.definition)
    (hstopped : r'.loop.running = false) : InStep r' :=
  ⟨hdefinition ▸ h.effects, fun hrun => by rw [hstopped] at hrun; cases hrun⟩

theorem InStep.process (h : InStep r) (action player parameters : Json) :
    InStep (process action player parameters r).2 := by
  have hattempt : SameStatus r.state (r.attempted action player parameters).2.state :=
    Action.attempt_moves ((admits_sameStatus _).obey r.clock h.effects) action player _
      (r.bench (parametersOf parameters).1)
  have hrecord := recorded_sameStatus (Room.process action player parameters r).1
    (r.attempted action player parameters).2.state
  refine h.of_same rfl (fun hrun => hrun) (trans_of SameStatus hattempt ?_)
  exact record_state (Room.process action player parameters r).1 { r with
    state := (r.attempted action player parameters).2.state
    cooldowns := (r.attempted action player parameters).2.cooldowns } ▸ hrecord

theorem InStep.stop (h : InStep r) : InStep r.stop :=
  h.of_stopped (stop_played r).definition (stop_running r)

/-! ### Starts -/

/-- A start brings loop and game to run, unless the loop runs already or the game is finished. -/
theorem start_cases (r : Room) :
    (r.loop.running = true ∧ r.start = (true, r)) ∨
    (r.loop.running = false ∧ r.start = (true, { r with
      state := { r.state with status := .running }, loop := r.loop.started })) ∨
    (r.loop.running = false ∧ r.state.status = .finished ∧ r.start = (false, r)) := by
  cases hrun : r.loop.running with
  | true => exact .inl ⟨rfl, start_of_running hrun⟩
  | false =>
    refine .inr ?_
    unfold Room.start State.start setStatus
    rw [if_neg (by rw [hrun]; exact Bool.false_ne_true)]
    by_cases hfinished : r.state.status = .finished
    · rw [if_neg (by rw [hfinished]; decide)]
      exact .inr ⟨rfl, hfinished, rfl⟩
    · rw [if_pos (by simpa [Status.permits] using hfinished)]
      exact .inl ⟨rfl, rfl⟩

theorem InStep.start (h : InStep r) : InStep r.start.2 := by
  rcases start_cases r with ⟨-, hs⟩ | ⟨-, hs⟩ | ⟨-, -, hs⟩ <;> rw [hs]
  · exact h
  · exact ⟨h.effects, fun _ => rfl⟩
  · exact h

theorem driven_inStep : Driven (Keeps InStep) where
  work r h := h.of_same rfl (fun hrun => hrun)
    (Pulse.run_moves ((admits_sameStatus _).obey r.clock h.effects) r.gated r.pulse).state
  act action player parameters _ h := h.process action player parameters
  start _ h := h.start
  stop _ h := h.stop
  halt r h := h.of_stopped (halt_played r).definition (halt_running r)
  loop _ _ hl _ _ h := h.of_same rfl hl.le rfl
  notes _ _ _ h := h.of_same rfl (fun hrun => hrun) rfl
  time _ _ _ _ h := h.of_same rfl (fun hrun => hrun) rfl

/-! ### Requests that leave the status to the loop -/

/-- Whether a request leaves it to the loop to take the status away from running. -/
def Request.leavesStatus : Request → Bool
  | .apply effect => !effect.setsStatus
  | .applyAll effects _ => effects.all (!·.setsStatus)
  | .setStatus _ | .pauseGame | .endGame _ | .renew => false
  | _ => true

theorem updatePlayer_sameStatus (id updates : Json) (r : Room) :
    (perform (.updatePlayer id updates)).Moves (Within fun _ => SameStatus) r := by
  have hupdate (fields : Table Json) (s : State) :
      (State.updatePlayer r.clock id fields).Moves SameStatus s := by
    unfold Task.Moves
    cases hp : s.player? id with
    | none => simp only [Task.outcome, State.updatePlayer, hp]; rfl
    | some p =>
      obtain ⟨p', -, -, hend⟩ := updatePlayer_scored r.clock hp fields
      rw [hend]
      rfl
  refine Task.moves_get_bind ?_
  split
  · exact Task.moves_pure _ r
  · exact (Task.moves_look _ r).bind fun fields r₁ _ =>
      answered (onState_within (hupdate fields r₁.state))

theorem setRunning_moves (s : State) : ToRunning s (s.setStatus .running).2 := by
  unfold setStatus
  split_ifs
  · exact .inr rfl
  · exact .inl rfl

theorem edit_toRunning {q : Request} (hq : q.leavesStatus) (hedits : q.edits) (r : Room) :
    (perform q).Moves (Within fun _ => ToRunning) r := by
  have hwithin (hplayer : ∀ id updates, q ≠ .updatePlayer id updates)
      (hok : ∀ e, q.asks e → e.setsStatus = false) :
      (perform q).Moves (Within fun _ => ToRunning) r :=
    perform_within admits_toRunning hedits hplayer hok r
  cases q with
  -- The two that set the status; an effect may only if it is none of those that set it.
  | startGame => exact answered (change_within (setRunning_moves r.state))
  | resumeGame =>
    refine answered (change_within ?_)
    unfold State.resume
    split
    · exact setRunning_moves r.state
    · exact .inl rfl
  | updatePlayer id updates =>
    obtain ⟨s, hs, hend⟩ := updatePlayer_sameStatus id updates r
    exact ⟨s, .inl hs, hend⟩
  | apply effect =>
    exact hwithin (fun _ _ => Request.noConfusion) fun e he => by
      obtain rfl : e = effect := he
      exact Bool.eq_false_iff.2 fun h => by simp [Request.leavesStatus, h] at hq
  | applyAll effects stopping =>
    exact hwithin (fun _ _ => Request.noConfusion) fun e he => by
      simpa using List.all_eq_true.1 hq e he
  | setVariable | modifyVariable | setProperty | updateScore =>
    exact hwithin (fun _ _ => Request.noConfusion) fun e he => by
      obtain ⟨_, _, rfl⟩ := he
      rfl
  | addLog | addEvent =>
    exact hwithin (fun _ _ => Request.noConfusion) fun e he => by
      cases he
      rfl
  | setStatus | pauseGame | endGame => cases hq
  | _ => cases hedits

theorem removePlayer_sameStatus (id : Json) (s : State) :
    SameStatus s (State.removePlayer id s).2 := by
  unfold State.removePlayer
  split
  · split_ifs <;> rfl
  · rfl

theorem reset_inStep (r : Room) : Keeps InStep r ((perform .reset).outcome r).2 := by
  intro h
  rcases reset_end r with ⟨fault, source, -, hend⟩ | ⟨s, source, -, hend⟩ <;> rw [hend] <;>
    exact h.of_stopped (stop_played r).definition (stop_running r)

theorem perform_inStep {q : Request} (hq : q.leavesStatus) (r : Room) :
    Keeps InStep r ((perform q).outcome r).2 := by
  intro h
  cases q.aim with
  | looks hidle | setsUp hidle =>
    have hlook := perform_idle hidle r
    exact h.of_same hlook.aside.definition hlook.running.le
      (congrArg State.status hlook.aside.state)
  | edits hedits =>
    obtain ⟨s, hs, hend⟩ := edit_toRunning hq hedits r
    rw [hend]
    refine ⟨h.effects, fun hrun => ?_⟩
    rcases hs with hs | hs
    · exact hs.trans (h.status hrun)
    · exact hs
  | course hcourse => exact driven_inStep.perform hcourse r h
  | clock hclock =>
    obtain ⟨clock, hend⟩ := perform_clock q r hclock
    rw [hend]
    exact ⟨h.effects, h.status⟩
  | cooldowns hhandles =>
    obtain ⟨cooldowns, hend⟩ := perform_handled hhandles r
    rw [hend]
    exact ⟨h.effects, h.status⟩
  | join data =>
    rcases join_cases data r with ⟨fault, ids, hend⟩ | ⟨p, -, -, hend⟩ <;> rw [hend] <;>
      exact ⟨h.effects, h.status⟩
  | leave id =>
    rw [perform, outcome_bind_pure]
    have hstill : Still r ((removePlayer id).outcome r).2 := removePlayer_still id r
    refine h.of_same hstill.definition (fun hrun => (hstill.loop hrun).1) ?_
    rw [removePlayer_state]
    exact removePlayer_sameStatus id r.state
  | drop id =>
    rw [perform, outcome_bind_pure]
    exact h.of_same rfl (fun hrun => hrun) (removePlayer_sameStatus id r.state)
  | renew => cases hq
  | reset => exact reset_inStep r h
  | destroy => exact h.of_stopped (stop_played r).definition (stop_running r)
  | close =>
    exact h.of_stopped (stop_played { r with closed := true }).definition
      (stop_running { r with closed := true })
  | count | clearHistory | clearRecent => exact ⟨h.effects, h.status⟩

theorem run_inStep {qs : List Request} (hqs : ∀ q ∈ qs, q.leavesStatus) (h : InStep r) :
    InStep (run qs r).2 := by
  induction qs generalizing r with
  | nil => exact h
  | cons q qs ih =>
    exact ih (fun q hq => hqs q (List.mem_cons_of_mem _ hq))
      (perform_inStep (hqs q List.mem_cons_self) r h)

theorem create_stopped (h : create d o = .ok r) : r.loop.running = false := by
  obtain ⟨s, source, timestep, -, -, rfl⟩ := made_of_create h
  rfl

/-! ### What a start says -/

/-- What the answer to a start says of the room before and after. -/
structure Says (r r' : Room) (answer : Bool) : Prop where
  started : answer = true → r'.loop.running ∧
    if r.loop.running then r' = r else r'.state.status = .running
  refused : answer = false → r.state.status = .finished ∧ r.loop.running = false ∧ r' = r

theorem start_says (r : Room) : Says r r.start.2 r.start.1 := by
  rcases start_cases r with ⟨hrun, hs⟩ | ⟨hrun, hs⟩ | ⟨hrun, hfinished, hs⟩ <;> rw [hs]
  · exact ⟨fun _ => ⟨hrun, by rw [if_pos hrun]⟩, fun h => Bool.noConfusion h⟩
  · refine ⟨fun _ => ⟨rfl, ?_⟩, fun h => Bool.noConfusion h⟩
    rw [if_neg (by rw [hrun]; exact Bool.false_ne_true)]
  · exact ⟨fun h => Bool.noConfusion h, fun _ => ⟨hfinished, hrun, rfl⟩⟩

/-- Whatever led to it, a room that is asked to start or resume says so truly: if it says yes, the
loop runs, and so does the game unless the loop ran before, in which case nothing is done; if it
says no, the game is finished, the loop is stopped, and nothing is done. As long as nothing but the
loop takes the status away from running, yes means that the game runs. -/
theorem start_tells (hr : create d o = .ok r₀) (qs : List Request) {q : Request}
    (hq : q = .start ∨ q = .resume) :
    ∃ answer r', (perform q).outcome (run qs r₀).2 = (.ok (.truth answer), r') ∧
      Says (run qs r₀).2 r' answer ∧
      ((∀ e ∈ d.effects, e.setsStatus = false) → (∀ q ∈ qs, q.leavesStatus) →
        answer = true → r'.state.status = .running) := by
  have hanswer := start_says (run qs r₀).2
  refine ⟨(run qs r₀).2.start.1, (run qs r₀).2.start.2, ?_, hanswer, fun heffects hqs hyes => ?_⟩
  · rcases hq with rfl | rfl <;> rfl
  · have hin : InStep r₀ := ⟨by rwa [(create_ok hr).1], fun hrun => by
      rw [create_stopped hr] at hrun
      cases hrun⟩
    exact (run_inStep hqs hin).start.status (hanswer.started hyes).1

theorem start_tells_uneventful :
    ∃ d r₀, d.Parsed ∧ create d .still = .ok r₀ ∧
      ∃ answer r', (perform .resume).outcome (run [.start, .forceTick, .pause] r₀).2 =
          (.ok (.truth answer), r') ∧
        Says (run [.start, .forceTick, .pause] r₀).2 r' answer ∧
        (answer = true → r'.state.status = .running) ∧
        (run [.start, .forceTick, .pause] r₀).2.state.status = .paused := by
  obtain ⟨d, hd⟩ : ∃ d, Definition.ofFields uneventful = .ok d := ⟨_, rfl⟩
  obtain ⟨r₀, hr⟩ : ∃ r₀, create d .still = .ok r₀ := by
    cases hd
    exact ⟨_, rfl⟩
  have heffects : ∀ e ∈ d.effects, e.setsStatus = false := by
    cases hd
    exact fun e he => absurd he (List.not_mem_nil)
  obtain ⟨answer, r', hend, hanswer, hrunning⟩ :=
    start_tells hr [.start, .forceTick, .pause] (.inr rfl : Request.resume = .start ∨ _)
  refine ⟨d, r₀, ⟨uneventful, hd⟩, hr, answer, r', hend, hanswer,
    hrunning heffects (by decide), ?_⟩
  cases hd
  cases hr
  decide +kernel

/-- A start that finds the loop running leaves a game paused that someone paused by hand. -/
theorem started_and_paused :
    ∃ d r₀ r', d.Parsed ∧ create d .still = .ok r₀ ∧
      (run [.start, .setStatus (.text "paused")] r₀).2 = r' ∧
      (perform .start).outcome r' = (.ok (.truth true), r') ∧
      r'.loop.running = true ∧ r'.state.status = .paused := by
  obtain ⟨d, hd⟩ : ∃ d, Definition.ofFields uneventful = .ok d := ⟨_, rfl⟩
  obtain ⟨r₀, hr⟩ : ∃ r₀, create d .still = .ok r₀ := by
    cases hd
    exact ⟨_, rfl⟩
  refine ⟨d, r₀, _, ⟨uneventful, hd⟩, hr, rfl, ?_⟩
  cases hd
  cases hr
  exact ⟨rfl, rfl, rfl⟩

end Room
end Gameroom
