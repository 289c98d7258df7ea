import Gameroom.Proofs.Room.Process

/-!
The moves of a room, and the way from one room to another with the ticks that are counted on it.
Moves are finer than steps: a tick is no move, a loop comes to run only in a game that runs, and a
player's list of actions only grows.
-/

namespace Gameroom.Room

/-- A change of a room other than the count of a tick. -/
inductive Move : Room → Room → Prop
  | change {r : Room} {s : State} (h : State.Change r.definition r.state s) :
      Move r { r with state := s }
  | act (action player parameters : Json) (r : Room) :
      Move r (process action player parameters r).2
  | join {p : Player} {r : Room} (h : p.id = playerId (r.ids + 1)) :
      Move r { r with
        ids := r.ids + 1
        state := { r.state with players := r.state.players.put p.id p } }
  | drop (id : String) (r : Room) :
      Move r { r with state := { r.state with players := r.state.players.drop id } }
  | leave (id : String) (r : Room) :
      Move r { r with
        state := { r.state with players := r.state.players.drop id }
        cooldowns := r.cooldowns.drop id }
  | run {r : Room} (h : r.state.status = .running) : Move r { r with loop := r.loop.started }
  | aside {r r' : Room} (h : Aside r r') (hloop : r'.loop.running → r.loop.running) : Move r r'

def counted (r : Room) : Room := { r with state := r.state.countTick }

/-- One room leads to another by moves, and so many ticks are counted on the way. -/
inductive Passes : Nat → Room → Room → Prop
  | refl (r : Room) : Passes 0 r r
  | move {n : Nat} {r r' r'' : Room} (h : Move r r') (rest : Passes n r' r'') : Passes n r r''
  | count {n : Nat} {r r' : Room} (rest : Passes n r.counted r') : Passes (n + 1) r r'

theorem Passes.trans {n m : Nat} {r r' r'' : Room} (h : Passes n r r') (h' : Passes m r' r'') :
    Passes (n + m) r r'' := by
  induction h with
  | refl r => rwa [Nat.zero_add]
  | move hmove _ ih => exact .move hmove (ih h')
  | count _ ih =>
    rw [Nat.succ_add]
    exact .count (ih h')

instance : IsPreorder Room (Passes 0) where
  refl := .refl
  trans _ _ _ h h' := h.trans h'

theorem Move.passes {r r' : Room} (h : Move r r') : Passes 0 r r' := .move h (.refl r')

theorem evolves_passes {r : Room} {s : State} (h : State.Evolves r.definition r.state s) :
    Passes 0 r { r with state := s } := by
  induction h with
  | refl => exact .refl r
  | tail _ hchange ih =>
    exact ih.trans (Move.passes (.change (r := { r with state := _ }) hchange))

theorem aside_passes {r r' : Room} (h : Aside r r') (hloop : r'.loop.running = r.loop.running) :
    Passes 0 r r' := Move.passes (.aside h hloop.le)

/-! ### The steps of a move -/

theorem Move.goes {r r' : Room} (h : Move r r') : Goes r r' := by
  cases h with
  | change h => exact plays_goes h.plays
  | act action player parameters => exact Step.goes (.act action player parameters r) trivial
  | join h => exact Step.goes (.join h) trivial
  | drop id => exact Step.goes (.drop id r) trivial
  | leave id => exact Step.goes (.leave id r) trivial
  | run => exact (Aside.withLoop r _).goes
  | aside h => exact h.goes

theorem Passes.goes {n : Nat} {r r' : Room} (h : Passes n r r') : Goes r r' := by
  induction h with
  | refl r => exact .refl r
  | move hmove _ ih => exact hmove.goes.trans ih
  | @count n r r' _ ih =>
    exact (plays_goes (State.Step.plays (.count r.state) trivial)).trans ih

/-! ### The loop -/

theorem withLoop_passes (r : Room) (l : Loop) (h : l.running = r.loop.running) :
    Passes 0 r { r with loop := l } := aside_passes (Aside.withLoop r l) h

theorem halt_passes (r : Room) : Passes 0 r r.halt := by
  unfold halt
  split
  · exact Move.passes (.aside (Aside.withLoop r _) fun h => Bool.noConfusion h)
  · exact .refl r

theorem stop_passes (r : Room) : Passes 0 r r.stop := by
  unfold stop
  split
  · exact (halt_passes r).trans (evolves_passes (State.pause_edits _).evolves)
  · exact .refl r

theorem start_passes (r : Room) : Passes 0 r r.start.2 := by
  have h := (State.setStatus_edits (d := r.definition) .running r.state).evolves
  unfold start State.start
  unfold State.setStatus at h ⊢
  split
  · exact .refl r
  · split_ifs at h ⊢
    -- The status moves first, and the loop comes to run in a game that runs.
    · exact (evolves_passes h).trans
        (Move.run (r := { r with state := { r.state with status := .running } }) rfl).passes
    · exact .refl r

theorem forgetTracking_passes (r : Room) : Passes 0 r r.forgetTracking :=
  aside_passes ⟨rfl, rfl, rfl, rfl, rfl, le_rfl⟩ rfl

theorem destroy_passes (r : Room) : Passes 0 r r.destroy := by
  have hquiet : Passes 0 r.stop.forgetTracking r.destroy :=
    aside_passes ⟨rfl, rfl, rfl, rfl, rfl, le_rfl⟩ rfl
  exact ((stop_passes r).trans (forgetTracking_passes _)).trans hquiet

theorem close_passes (r : Room) : Passes 0 r r.close := by
  have h : Passes 0 r { r with closed := true } :=
    aside_passes ⟨rfl, rfl, rfl, rfl, rfl, le_rfl⟩ rfl
  exact h.trans (destroy_passes _)

/-! ### Actions and listeners

A listener notes a tick or refuses it, and may stop the room or ask for an action before. So
whatever actions, notes, refusals and stops keep to, all that is told of a tick keeps to.
-/

/-- The pulse that a tick leaves, whether or not a fault ended it. -/
def pulsed (r : Room) : Pulse := ((Pulse.run r.definition r.clock r.gated).outcome r.pulse).2

section
variable {R : Room → Room → Prop} [IsPreorder Room R]
  (hact : ∀ (action player parameters : Json) (r : Room),
    R r (process action player parameters r).2)
include hact

theorem submit_keeps (action player parameters : Json) (r : Room) :
    (submit action player parameters).Moves R r := by
  refine Task.moves_get_bind ?_
  split
  · exact Task.moves_throw _ r
  · exact Task.moves_modifyGet (hact action player parameters r)

theorem submitAll_keeps (asked : List (Json × Json × Json)) (r : Room) :
    (submitAll asked).Moves R r := by
  induction asked generalizing r with
  | nil => exact Task.moves_pure [] r
  | cons first rest ih =>
    obtain ⟨action, player, parameters⟩ := first
    exact (submit_keeps hact action player parameters r).bind fun _ r₁ _ =>
      (ih r₁).bind fun _ r₂ _ => Task.moves_pure _ r₂

variable
  (hnote : ∀ (key : String) (news : News) (vars : Table Json) (r : Room),
    R r (r.note key news vars))
  (hrefusal : ∀ (key : String) (news : News) (fault : Fault) (r : Room),
    R r (r.refusal key news fault))
  (hstop : ∀ r : Room, R r r.stop)
include hnote hrefusal hstop

theorem react_keeps (l : Registered Reaction) (news : News) (r : Room) :
    R r (react l news r).2 := by
  unfold react
  split
  · exact hnote _ _ _ r
  · dsimp only
    split
    · exact hrefusal _ _ _ r
    · exact hnote _ _ _ r
  · split
    · split
      · exact trans_of R (hstop r) (hnote _ _ _ _)
      · exact hnote _ _ _ r
    · exact hrefusal _ _ _ r
  · split
    · exact hnote _ _ _ r
    · exact hrefusal _ _ _ r
  · -- The action comes first, and the listener notes or refuses in the room that it leaves.
    rename_i action player _
    have h := submit_keeps hact action player .null r
    unfold Task.Moves at h
    split
    · rename_i hs
      rw [Task.outcome_ok hs] at h
      exact trans_of R h (hnote _ _ _ _)
    · rename_i hs
      rw [Task.outcome_error hs] at h
      exact trans_of R h (hrefusal _ _ _ _)

theorem tellTick_keeps (ls : List (Registered Reaction)) (news : News) (r : Room) :
    R r (tellTick news r ls) := by
  induction ls generalizing news r with
  | nil => exact refl_of R r
  | cons l rest ih =>
    exact trans_of R (react_keeps hact hnote hrefusal hstop l news r) (ih _ _)

theorem tick_keeps (herror : ∀ (fault : Fault) (r : Room), R r (r.tellError fault))
    (hexecuted : ∀ (r : Room) (n : Nat), R r { r with loop := { r.loop with ticksExecuted := n } })
    (hhalt : ∀ r : Room, R r r.halt) (r : Room) : R (r.afterPulse r.pulsed) r.tick := by
  unfold tick pulsed
  cases (Pulse.run r.definition r.clock r.gated).outcome r.pulse with
  | mk result p =>
    cases result with
    | error fault => exact herror fault _
    | ok done =>
      have hcount := hexecuted (r.afterPulse p) (r.loop.ticksExecuted + 1)
      have htold := tellTick_keeps hact hnote hrefusal hstop
      dsimp only
      split
      · exact trans_of R (trans_of R hcount (htold _ _ _)) (hhalt _)
      · exact trans_of R hcount (htold _ _ _)

end

theorem submit_passes (action player parameters : Json) (r : Room) :
    (submit action player parameters).Moves (Passes 0) r :=
  submit_keeps (fun _ _ _ r => (Move.act _ _ _ r).passes) action player parameters r

/-! ### A state made anew -/

theorem renew_ok {r : Room} {s : State} {source : Source}
    (h : State.initial r.definition r.clock r.source = .ok s source) :
    renew r = .ok () { r with state := s, source, recent := #[] } := by
  simp only [renew, bind, EStateM.bind, get, getThe, MonadStateOf.get, EStateM.get, Task.on, h]
  rfl

theorem renew_error {r : Room} {fault : Fault} {source : Source}
    (h : State.initial r.definition r.clock r.source = .error fault source) :
    renew r = .error fault { r with source } := by
  simp only [renew, bind, EStateM.bind, get, getThe, MonadStateOf.get, EStateM.get, Task.on, h]

theorem reset_ok {r r' : Room} (h : renew r.stop = .ok () r') :
    reset r = .ok () (forgetTracking { r' with cooldowns := [], history := #[] }) :=
  (Task.bind_ok rfl).trans (Task.bind_ok h)

theorem reset_error {r r' : Room} {fault : Fault} (h : renew r.stop = .error fault r') :
    reset r = .error fault r' :=
  (Task.bind_ok rfl).trans (Task.bind_error h)

/-! ### Ticks -/

theorem tellError_passes (fault : Fault) (r : Room) : Passes 0 r (r.tellError fault) :=
  aside_passes ⟨rfl, rfl, rfl, rfl, rfl, le_rfl⟩ rfl

theorem note_passes (key : String) (news : News) (vars : Table Json) (r : Room) :
    Passes 0 r (r.note key news vars) :=
  aside_passes ⟨rfl, rfl, rfl, rfl, rfl, le_rfl⟩ rfl

theorem refusal_passes (key : String) (news : News) (fault : Fault) (r : Room) :
    Passes 0 r (r.refusal key news fault) :=
  aside_passes ⟨rfl, rfl, rfl, rfl, rfl, le_rfl⟩ rfl

theorem afterPulse_passes {r : Room} {p : Pulse}
    (h : State.Evolves r.definition r.state.countTick p.state) : Passes 1 r (r.afterPulse p) := by
  have hstate : Passes 0 r.counted { r with state := p.state } := evolves_passes (r := r.counted) h
  have haside : Passes 0 { r with state := p.state } (r.afterPulse p) :=
    aside_passes ⟨rfl, rfl, rfl, rfl, rfl, le_rfl⟩ rfl
  exact .count (hstate.trans haside)

theorem tick_passes (r : Room) : Passes 1 r r.tick := by
  have hwork : Passes 1 r (r.afterPulse r.pulsed) :=
    afterPulse_passes (Pulse.run_evolves r.clock r.gated r.pulse)
  have htold : Passes 0 (r.afterPulse r.pulsed) r.tick :=
    tick_keeps (fun _ _ _ r => (Move.act _ _ _ r).passes) note_passes refusal_passes stop_passes
      tellError_passes (fun r _ => withLoop_passes r _ rfl) halt_passes r
  exact hwork.trans htold

theorem ticks_passes (n : Nat) (r : Room) : Passes n r (ticks n r) := by
  induction n generalizing r with
  | zero => exact .refl r
  | succ n ih =>
    have h : Passes (1 + n) r (ticks (n + 1) r) := (tick_passes r).trans (ih r.tick)
    rwa [Nat.add_comm] at h

def spendOne (r : Room) : Room :=
  { r.tick with
    loop := { r.tick.loop with accumulator := r.tick.loop.accumulator - r.tick.loop.timestep } }

theorem spendOne_passes (r : Room) : Passes 1 r r.spendOne := by
  have hpaid : Passes 0 r.tick r.spendOne := withLoop_passes r.tick _ rfl
  exact (tick_passes r).trans hpaid

theorem spend_succ (fuel count : Nat) (r : Room) :
    spend (fuel + 1) count r =
      if r.loop.timestep ≤ r.loop.accumulator ∧ r.loop.running then
        spend fuel (count + 1) r.spendOne
      else (count, r) := rfl

theorem spend_eq (fuel count : Nat) (r : Room) :
    ∃ n, spend fuel count r = (count + n, spendOne^[n] r) ∧
      ∀ m < n, (spendOne^[m] r).loop.running := by
  induction fuel generalizing count r with
  | zero => exact ⟨0, rfl, fun m hm => absurd hm (Nat.not_lt_zero m)⟩
  | succ fuel ih =>
    rw [spend_succ]
    split_ifs with hdue
    · obtain ⟨n, hn, hrun⟩ := ih (count + 1) r.spendOne
      refine ⟨n + 1, ?_, fun m hm => ?_⟩
      · rw [hn, Function.iterate_succ_apply, Nat.add_assoc, Nat.add_comm 1 n]
      · cases m with
        | zero => exact hdue.2
        | succ m => exact hrun m (by omega)
    · exact ⟨0, rfl, fun m hm => absurd hm (Nat.not_lt_zero m)⟩

theorem iterate_passes (n : Nat) (r : Room) : Passes n r (spendOne^[n] r) := by
  induction n with
  | zero => exact .refl r
  | succ n ih =>
    rw [Function.iterate_succ_apply']
    exact ih.trans (spendOne_passes _)

/-! ### Frames -/

/-- A room whose loop has so many milliseconds more to spend. -/
def afterTime (x : Float) (r : Room) : Room :=
  { r with
    loop := { r.loop with lastTime := r.loop.host, accumulator := r.loop.accumulator + x } }

theorem afterTime_passes (x : Float) (r : Room) : Passes 0 r (r.afterTime x) :=
  withLoop_passes r _ rfl

theorem frame_stopped {r : Room} (h : r.loop.running = false) : frame r = .ok 0 r := by
  simp only [frame, bind, EStateM.bind, get, getThe, MonadStateOf.get, EStateM.get, h]
  rfl

theorem frame_running {r : Room} (h : r.loop.running) :
    frame r =
      match r.loop.elapsed with
      | .error fault => .error fault r
      | .ok elapsed =>
        match elapsed.toFloat with
        | .error fault => .error fault { r with loop := { r.loop with lastTime := r.loop.host } }
        | .ok x =>
          .ok (spend (r.afterTime x).loop.ticksWithin 0 (r.afterTime x)).1
            (spend (r.afterTime x).loop.ticksWithin 0 (r.afterTime x)).2 := by
  have hrun : ¬(!r.loop.running) = true := by simp [h]
  simp only [frame, bind, EStateM.bind, get, getThe, MonadStateOf.get, EStateM.get]
  rw [if_neg hrun]
  cases helapsed : r.loop.elapsed with
  | error fault => simp only [EStateM.bind, Task.look, helapsed]
  | ok elapsed =>
    simp only [EStateM.bind, Task.look, helapsed, modify, modifyGet, MonadStateOf.modifyGet,
      EStateM.modifyGet]
    cases elapsed.toFloat <;> rfl

def frameTicks (r : Room) : Nat :=
  match (frame.outcome r).1 with
  | .ok n => n
  | .error _ => 0

theorem frame_passes (r : Room) : Passes r.frameTicks r (frame.outcome r).2 := by
  unfold frameTicks Task.outcome
  cases h : r.loop.running with
  | false =>
    rw [frame_stopped h]
    exact .refl r
  | true =>
    rw [frame_running h]
    cases r.loop.elapsed with
    | error fault => exact .refl r
    | ok elapsed =>
      dsimp only
      cases elapsed.toFloat with
      | error fault => exact withLoop_passes r _ rfl
      | ok x =>
        obtain ⟨n, hn, -⟩ := spend_eq (r.afterTime x).loop.ticksWithin 0 (r.afterTime x)
        dsimp only
        rw [hn]
        exact (afterTime_passes x r).trans (iterate_passes n (r.afterTime x))

theorem advanceHost_error {r : Room} {ms : Json} {fault : Fault}
    (h : Json.addedTo r.loop.host ms = .error fault) :
    (advanceHost ms).outcome r = (.error fault, r) := by
  simp only [advanceHost, Task.outcome, bind, EStateM.bind, Task.look, h]

theorem advanceHost_ok {r : Room} {ms : Json} {host : Float}
    (h : Json.addedTo r.loop.host ms = .ok host) :
    ((advanceHost ms).outcome r).2 =
      if r.threaded && r.loop.running then (frame.outcome { r with loop := { r.loop with host } }).2
      else { r with loop := { r.loop with host } } := by
  simp only [advanceHost, Task.outcome, bind, EStateM.bind, Task.look, h, modify, modifyGet,
    MonadStateOf.modifyGet, EStateM.modifyGet, get, getThe, MonadStateOf.get, EStateM.get]
  rfl

end Gameroom.Room
