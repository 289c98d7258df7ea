import Gameroom.Proofs.Definition.Parsed
import Gameroom.Proofs.Room.Growth

/-!
When the loop stops with the game. A tick looks at its end whether the game is finished, so the loop
goes on if a fault ended the tick before, or if a listener finished the game after.
-/

namespace Gameroom.Room

/-- The work of a tick comes to its end, and the game is finished there. -/
def EndsFinished (r : Room) : Prop :=
  ∃ p, (Pulse.run r.definition r.clock r.gated).outcome r.pulse = (.ok (), p) ∧
    p.state.status = .finished

def IsStop (tick : Nat) (l : Registered Reaction) : Prop :=
  ∃ due, l.listener = .stopAt due ∧ (Json.int tick).reaches due = .ok true

/-- The work of a tick comes to its end, and a listener stops the loop. -/
def EndsStopped (r : Room) : Prop :=
  ∃ p, (Pulse.run r.definition r.clock r.gated).outcome r.pulse = (.ok (), p) ∧
    ∃ l ∈ r.loop.tickListeners, IsStop p.state.tick l

variable {r r' last : Room}

theorem halt_running (r : Room) : r.halt.loop.running = false := by
  unfold halt
  split
  · rfl
  · rename_i h
    exact Bool.eq_false_iff.2 h

theorem stop_running (r : Room) : r.stop.loop.running = false := by
  unfold stop
  split
  · exact halt_running r
  · rename_i h
    exact Bool.eq_false_iff.2 h

theorem submit_loop (action player parameters : Json) (r : Room) :
    ((submit action player parameters).outcome r).2.loop = r.loop := by
  unfold Task.outcome
  simp only [submit, bind, EStateM.bind, get, getThe, MonadStateOf.get, EStateM.get]
  cases r.closed <;> rfl

theorem react_tick (l : Registered Reaction) (news : News) (r : Room) :
    (react l news r).1.tick = news.tick := by
  unfold react
  split <;> try rfl
  all_goals split <;> rfl

theorem react_running (l : Registered Reaction) (news : News) (r : Room) :
    (react l news r).2.loop.running ↔ r.loop.running ∧ ¬IsStop news.tick l := by
  obtain ⟨key, current, listener⟩ := l
  cases listener with
  | record => simp [react, note, IsStop]
  | refuseSome refused =>
    cases h : refused news.tick <;> simp [react, h, note, refusal, tellError, IsStop]
  | overwrite name value =>
    cases h : name.name <;> simp [react, h, note, refusal, tellError, IsStop]
  | stopAt due =>
    cases h : (Json.int news.tick).reaches due with
    | error fault => simp [react, h, refusal, tellError, IsStop]
    | ok reached => cases reached <;> simp [react, h, note, IsStop, stop_running]
  | act action player =>
    have hloop := submit_loop action player .null r
    unfold Task.outcome at hloop
    cases h : submit action player .null r with
    | ok e r₁ =>
      rw [h] at hloop
      simp [react, h, note, IsStop, ← hloop]
    | error fault r₁ =>
      rw [h] at hloop
      simp [react, h, refusal, tellError, IsStop, ← hloop]

theorem tellTick_running (ls : List (Registered Reaction)) (news : News) (r : Room) :
    (tellTick news r ls).loop.running ↔ r.loop.running ∧ ∀ l ∈ ls, ¬IsStop news.tick l := by
  induction ls generalizing news r with
  | nil => simp [tellTick]
  | cons l rest ih =>
    have hrest := ih (react l news r).1 (react l news r).2
    rw [react_tick, react_running] at hrest
    rw [List.forall_mem_cons, ← and_assoc]
    exact hrest

/-- A tick stops the loop if its work comes to its end, and the game is finished there or a listener
stops the loop. -/
theorem tick_running (r : Room) :
    r.tick.loop.running ↔ r.loop.running ∧ ¬EndsFinished r ∧ ¬EndsStopped r := by
  unfold tick EndsFinished EndsStopped
  rcases h : (Pulse.run r.definition r.clock r.gated).outcome r.pulse with ⟨fault | _, p⟩
  · simp [tellError, afterPulse]
  · have htell := tellTick_running r.loop.tickListeners
      ⟨p.state.tick, p.state, p.state.vars.mapValues .number⟩ { r.afterPulse p with
        loop := { r.loop with ticksExecuted := r.loop.ticksExecuted + 1 } }
    dsimp only
    split_ifs with hfinished
    · simp [halt_running, hfinished]
    · refine htell.trans ?_
      simp [hfinished]

/-! ### Calls that tick -/

/-- A room at the beginning of a frame, with the time that the frame may spend. -/
def begun (r : Room) : Room :=
  match r.loop.elapsed >>= Json.toFloat with
  | .ok x => r.afterTime x
  | .error _ => r

/-- A call that ticks at least once, with the room before its last tick and the room it leaves: a
tick by force, or a frame. -/
inductive Ticked (r : Room) : Room → Room → Prop
  | forced : Ticked r r r.tick
  | framed {n : Nat} {r' : Room} (h : frame r = .ok (n + 1) r') :
      Ticked r (spendOne^[n] r.begun) r'

theorem frame_last {n : Nat} (h : frame r = .ok (n + 1) r') :
    r.loop.running ∧ (spendOne^[n] r.begun).loop.running ∧
      r' = (spendOne^[n] r.begun).spendOne := by
  cases hrun : r.loop.running with
  | false =>
    rw [frame_stopped hrun] at h
    cases h
  | true =>
    rw [frame_running hrun] at h
    cases helapsed : r.loop.elapsed with
    | error fault =>
      rw [helapsed] at h
      cases h
    | ok elapsed =>
      cases hx : elapsed.toFloat with
      | error fault =>
        simp only [helapsed, hx] at h
        cases h
      | ok x =>
        obtain ⟨m, hm, hbegun⟩ := spend_eq (r.afterTime x).loop.ticksWithin 0 (r.afterTime x)
        simp only [helapsed, hx, hm] at h
        obtain ⟨hcount, rfl⟩ := EStateM.Result.ok.inj h
        obtain rfl : m = n + 1 := by omega
        -- The room that begins to tick is the one whose time was counted.
        have hstart : r.begun = r.afterTime x := by
          have hsum : (r.loop.elapsed >>= Json.toFloat) = .ok x := by rw [helapsed]; exact hx
          rw [begun, hsum]
        rw [hstart]
        exact ⟨rfl, hbegun n (Nat.lt_succ_self n), Function.iterate_succ_apply' _ _ _⟩

theorem Ticked.running (h : Ticked r last r') :
    r'.loop.running ↔ r.loop.running ∧ ¬EndsFinished last ∧ ¬EndsStopped last := by
  cases h with
  | forced => exact tick_running r
  | @framed n r' h =>
    obtain ⟨hrun, hlast, rfl⟩ := frame_last h
    have hticked := tick_running (spendOne^[n] r.begun)
    rw [hlast] at hticked
    rw [hrun]
    exact hticked

/-- The loop is stopped, and no frame ticks until the state is made anew. -/
def StopsForGood (r : Room) : Prop :=
  r.loop.running = false ∧ ∀ qs : List Request, (∀ q ∈ qs, q.restarts = false) →
    frame (run qs r).2 = .ok 0 (run qs r).2

theorem stopsForGood_of_finished (hfinished : r.state.status = .finished)
    (hstopped : r.loop.running = false) : StopsForGood r := by
  refine ⟨hstopped, fun qs hqs => frame_stopped ?_⟩
  rw [Bool.eq_false_iff]
  intro hrun
  rw [(run_ages hqs r).rest hfinished hrun] at hstopped
  cases hstopped

/-- A call that ticks and leaves the game finished stops the loop for good exactly if the loop did
not run, or the work of its last tick came to its end with the game finished or with a listener that
stops the loop. -/
theorem stopsForGood_iff (h : Ticked r last r') (hfinished : r'.state.status = .finished) :
    StopsForGood r' ↔ (r.loop.running → EndsFinished last ∨ EndsStopped last) := by
  have hrunning := h.running
  constructor
  · intro hstops hrun
    by_contra hnot
    rw [not_or] at hnot
    have := hrunning.2 ⟨hrun, hnot⟩
    rw [hstops.1] at this
    cases this
  · intro hcause
    refine stopsForGood_of_finished hfinished (Bool.eq_false_iff.2 fun hrun => ?_)
    obtain ⟨hbefore, hnot⟩ := hrunning.1 hrun
    exact (not_or.2 hnot) (hcause hbefore)

def finale (level : Int) : Table Json :=
  [("meta", .object []),
    ("vars", .object [("level", .object [("value", .int 0), ("min", .int 0), ("max", .int 10)])]),
    ("rules", .list [.object [("trigger", .text "tick"), ("effects", .list [
      .object [("type", .text "set_status"), ("status", .text "finished")],
      .object [("type", .text "set_var"), ("target", .text "level"), ("value", .int level)]])]])]

theorem stopsForGood_finale :
    ∃ d r, d.Parsed ∧ InPlay d r ∧ r.loop.running ∧ Ticked r r r.tick ∧
      r.tick.state.status = .finished ∧ StopsForGood r.tick := by
  obtain ⟨d, hd⟩ : ∃ d, Definition.ofFields (finale 5) = .ok d := ⟨_, rfl⟩
  obtain ⟨r, hr⟩ : ∃ r, create d .still = .ok r := by
    cases hd
    exact ⟨_, rfl⟩
  have hfinished : (run [.start] r).2.tick.state.status = .finished := by
    cases hd
    cases hr
    decide +kernel
  refine ⟨d, (run [.start] r).2, ⟨finale 5, hd⟩, ⟨.still, r, _, hr, .refl _⟩, ?_, .forced,
    hfinished, (stopsForGood_iff .forced hfinished).2 fun _ => .inl ?_⟩
  · cases hd
    cases hr
    rfl
  · cases hd
    cases hr
    exact ⟨_, rfl, rfl⟩

/-- A fault after the end of the game leaves the loop running, and a later frame ticks. -/
theorem ticks_after_finale :
    ∃ d r, d.Parsed ∧ InPlay d r ∧ Ticked r r r.tick ∧ r.tick.state.status = .finished ∧
      r.tick.loop.running ∧ (run [.advanceHost (.int 16)] r.tick).2.frameTicks = 1 := by
  obtain ⟨d, hd⟩ : ∃ d, Definition.ofFields (finale (2 ^ 1024)) = .ok d := ⟨_, rfl⟩
  obtain ⟨r, hr⟩ : ∃ r, create d .still = .ok r := by
    cases hd
    exact ⟨_, rfl⟩
  refine ⟨d, (run [.start] r).2, ⟨finale (2 ^ 1024), hd⟩, ⟨.still, r, _, hr, .refl _⟩, .forced, ?_⟩
  cases hd
  cases hr
  decide +kernel

end Gameroom.Room
