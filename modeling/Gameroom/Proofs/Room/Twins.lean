import Gameroom.Proofs.Alike
import Gameroom.Proofs.Loop.Timestep
import Gameroom.Proofs.Room.Move

/-!
Rooms that differ only in what the past of their loops has left: how many ticks there were and,
while the loop is stopped, times that a start sets anew. No request but that for the figures of the
loop tells them apart.
-/

namespace Gameroom.Room

open Gameroom.Task

/-- What a room keeps from its making. -/
structure Making where
  definition : Definition
  id : String
  maxFrame : Json
  gated : Bool
  threaded : Bool

def making (r : Room) : Making := ⟨r.definition, r.id, r.loop.maxFrame, r.gated, r.threaded⟩

/-- A room whose loop has another past. -/
def leaving (ticks : Nat) (accumulator lastTime : Float) (r : Room) : Room :=
  { r with loop := { r.loop with ticksExecuted := ticks, accumulator, lastTime } }

/-- Two rooms of one making whose loops have different pasts. While they run, they have counted the
same time. -/
structure Twins (m : Making) (r r' : Room) : Prop where
  making : r.making = m
  held : Loop.timestepOf (.float r.loop.timestep) = .ok r.loop.timestep
  leaving : ∃ ticks accumulator lastTime, r' = r.leaving ticks accumulator lastTime ∧
    (r.loop.running → accumulator = r.loop.accumulator ∧ lastTime = r.loop.lastTime)

/-- A change of a room that leaves its making and its loop, whatever the loop's past. -/
structure Aloof (f : Room → Room) : Prop where
  making : ∀ r, (f r).making = r.making
  loop : ∀ r, (f r).loop = r.loop
  leaves : ∀ r ticks x y, f (r.leaving ticks x y) = (f r).leaving ticks x y

variable {m : Making} {r r' : Room} {α : Type}

theorem halt_of_running (h : r.loop.running) : r.halt = { r with loop := r.loop.halted } := if_pos h

theorem halt_of_stopped (h : r.loop.running = false) : r.halt = r := if_neg (by simp [h])

theorem stop_of_running (h : r.loop.running) :
    r.stop = { r.halt with state := r.halt.state.pause.2 } := if_pos h

theorem stop_of_stopped (h : r.loop.running = false) : r.stop = r := if_neg (by simp [h])

namespace Twins

theorem refl (making : r.making = m)
    (held : Loop.timestepOf (.float r.loop.timestep) = .ok r.loop.timestep) : Twins m r r :=
  ⟨making, held, _, _, _, rfl, fun _ => ⟨rfl, rfl⟩⟩

theorem same (h : Twins m r r') (f : Room → α)
    (hf : ∀ ticks x y, f (r.leaving ticks x y) = f r) : f r' = f r := by
  obtain ⟨-, -, ticks, x, y, rfl, -⟩ := h
  exact hf ticks x y

theorem running (h : Twins m r r') : r'.loop.running = r.loop.running :=
  h.same (·.loop.running) fun _ _ _ => rfl

theorem state (h : Twins m r r') : r'.state = r.state := h.same (·.state) fun _ _ _ => rfl

theorem aloof (h : Twins m r r') {f : Room → Room} (hf : Aloof f) : Twins m (f r) (f r') := by
  obtain ⟨hmaking, hheld, ticks, x, y, rfl, hrun⟩ := h
  have hloop := hf.loop r
  exact ⟨(hf.making r).trans hmaking, by rwa [hloop], ticks, x, y, hf.leaves r ticks x y,
    by rwa [hloop]⟩

/-! ### Tasks -/

theorem look (h : Twins m r r') {f : Room → Except Fault α}
    (hf : ∀ ticks x y, f (r.leaving ticks x y) = f r) : Alike (Twins m) (Task.look f) r r' :=
  alike_look (h.same f hf) h

theorem get_bind (h : Twins m r r') {f : Room → Task Room α}
    (hf : ∀ ticks x y, f (r.leaving ticks x y) = f r) (ha : Alike (Twins m) (f r) r r') :
    Alike (Twins m) (get >>= f) r r' := alike_get_bind (h.same f hf) ha

theorem modify (h : Twins m r r') {f : Room → Room} (hf : Aloof f) :
    Alike (Twins m) (modify f : Task Room PUnit) r r' := alike_modify (h.aloof hf)

theorem modifyGet (h : Twins m r r') {f : Room → α × Room}
    (hsame : ∀ ticks x y, (f (r.leaving ticks x y)).1 = (f r).1) (hf : Aloof fun r => (f r).2) :
    Alike (Twins m) (modifyGet f : Task Room α) r r' :=
  alike_modifyGet (h.same (fun r => (f r).1) hsame).symm (h.aloof hf)

theorem onState (h : Twins m r r') (t : Task State α) :
    Alike (Twins m) (Room.onState t) r r' :=
  alike_on t h.state fun s => h.aloof (f := fun r => { r with state := s })
    ⟨fun _ => rfl, fun _ => rfl, fun _ _ _ _ => rfl⟩

theorem change (h : Twins m r r') (f : State → α × State) :
    Alike (Twins m) (Room.change f) r r' :=
  h.modifyGet (fun _ _ _ => rfl) ⟨fun _ => rfl, fun _ => rfl, fun _ _ _ _ => rfl⟩

/-! ### The life of a room -/

theorem halt (h : Twins m r r') : Twins m r.halt r'.halt := by
  cases hrun : r.loop.running with
  | true =>
    rw [halt_of_running hrun, halt_of_running (h.running.trans hrun)]
    obtain ⟨hmaking, hheld, ticks, x, y, rfl, -⟩ := h
    exact ⟨hmaking, hheld, ticks, 0, y, rfl, nofun⟩
  | false => rwa [halt_of_stopped hrun, halt_of_stopped (h.running.trans hrun)]

theorem stop (h : Twins m r r') : Twins m r.stop r'.stop := by
  cases hrun : r.loop.running with
  | true =>
    rw [stop_of_running hrun, stop_of_running (h.running.trans hrun)]
    exact h.halt.aloof (f := fun r => { r with state := r.state.pause.2 })
      ⟨fun _ => rfl, fun _ => rfl, fun _ _ _ _ => rfl⟩
  | false => rwa [stop_of_stopped hrun, stop_of_stopped (h.running.trans hrun)]

theorem start (h : Twins m r r') : r.start.1 = r'.start.1 ∧ Twins m r.start.2 r'.start.2 := by
  unfold Room.start
  rw [h.running, h.state]
  split_ifs
  · exact ⟨rfl, h⟩
  · split
    · obtain ⟨hmaking, hheld, ticks, x, y, rfl, -⟩ := h
      exact ⟨rfl, hmaking, hheld, ticks, 0, r.loop.host, rfl, fun _ => ⟨rfl, rfl⟩⟩
    · exact ⟨rfl, h⟩

theorem forgetTracking (h : Twins m r r') : Twins m r.forgetTracking r'.forgetTracking :=
  h.aloof ⟨fun _ => rfl, fun _ => rfl, fun _ _ _ _ => rfl⟩

theorem withHost (h : Twins m r r') (host : Float) :
    Twins m { r with loop := { r.loop with host } } { r' with loop := { r'.loop with host } } := by
  obtain ⟨hmaking, hheld, ticks, x, y, rfl, hrun⟩ := h
  exact ⟨hmaking, hheld, ticks, x, y, rfl, hrun⟩

theorem destroy (h : Twins m r r') : Twins m r.destroy r'.destroy := by
  obtain ⟨hmaking, hheld, ticks, x, y, heq, hrun⟩ := h.stop.forgetTracking
  unfold Room.destroy
  dsimp only
  rw [heq]
  exact ⟨hmaking, hheld, ticks, x, y, rfl, hrun⟩

theorem close (h : Twins m r r') : Twins m r.close r'.close := by
  have hclosed : Twins m { r with closed := true } { r' with closed := true } :=
    h.aloof (f := fun r => { r with closed := true })
      ⟨fun _ => rfl, fun _ => rfl, fun _ _ _ _ => rfl⟩
  exact hclosed.destroy

theorem renew (h : Twins m r r') : Alike (Twins m) Room.renew r r' := by
  have hsource : r'.source = r.source := h.same (·.source) fun _ _ _ => rfl
  refine h.get_bind (fun _ _ _ => rfl) ((alike_on _ hsource fun source => ?_).bind
    fun s _ _ h' => h'.modify ⟨fun _ => rfl, fun _ => rfl, fun _ _ _ _ => rfl⟩)
  exact h.aloof (f := fun r => { r with source })
    ⟨fun _ => rfl, fun _ => rfl, fun _ _ _ _ => rfl⟩

theorem reset (h : Twins m r r') : Alike (Twins m) Room.reset r r' := by
  refine (alike_modify h.stop).bind fun _ _ _ h₁ => h₁.renew.bind fun _ _ _ h₂ => ?_
  refine (h₂.modify ?_).bind fun _ _ _ h₃ => alike_modify h₃.forgetTracking
  exact ⟨fun _ => rfl, fun _ => rfl, fun _ _ _ _ => rfl⟩

/-! ### Ticks -/

theorem process (h : Twins m r r') (action player parameters : Json) :
    Alike (Twins m) (MonadState.modifyGet (Room.process action player parameters)) r r' :=
  h.modifyGet (fun _ _ _ => rfl) ⟨fun _ => rfl, fun _ => rfl, fun _ _ _ _ => rfl⟩

theorem submit (h : Twins m r r') (action player parameters : Json) :
    Alike (Twins m) (Room.submit action player parameters) r r' := by
  refine h.get_bind (fun _ _ _ => rfl) ?_
  split
  · exact h.get_bind (fun _ _ _ => rfl)
      ((alike_throw h _).bind fun _ _ _ h' => h'.process action player parameters)
  · exact h.process action player parameters

theorem tellError (h : Twins m r r') (fault : Fault) :
    Twins m (r.tellError fault) (r'.tellError fault) := by
  obtain ⟨hmaking, hheld, ticks, x, y, rfl, hrun⟩ := h
  exact ⟨hmaking, hheld, ticks, x, y, rfl, hrun⟩

theorem note (h : Twins m r r') (key : String) (news : News) (vars : Table Json) :
    Twins m (r.note key news vars) (r'.note key news vars) :=
  h.aloof ⟨fun _ => rfl, fun _ => rfl, fun _ _ _ _ => rfl⟩

theorem refusal (h : Twins m r r') (key : String) (news : News) (fault : Fault) :
    Twins m (r.refusal key news fault) (r'.refusal key news fault) := by
  obtain ⟨hmaking, hheld, ticks, x, y, rfl, hrun⟩ := h
  exact ⟨hmaking, hheld, ticks, x, y, rfl, hrun⟩

theorem react (h : Twins m r r') (l : Registered Reaction) (news : News) :
    (Room.react l news r).1 = (Room.react l news r').1 ∧
      Twins m (Room.react l news r).2 (Room.react l news r').2 := by
  unfold Room.react
  split
  · exact ⟨rfl, h.note _ _ _⟩
  · dsimp only
    split
    · exact ⟨rfl, h.refusal _ _ _⟩
    · exact ⟨rfl, h.note _ _ _⟩
  · split
    · refine ⟨rfl, Twins.note ?_ _ _ _⟩
      split
      · exact h.stop
      · exact h
    · exact ⟨rfl, h.refusal _ _ _⟩
  · split
    · exact ⟨rfl, h.note _ _ _⟩
    · exact ⟨rfl, h.refusal _ _ _⟩
  · rename_i action player _
    rcases alike_iff.1 (h.submit action player .null) with
      ⟨e, r₁, r₁', hs, hs', h₁⟩ | ⟨fault, r₁, r₁', hs, hs', h₁⟩
    · rw [hs, hs']
      exact ⟨rfl, h₁.note _ _ _⟩
    · rw [hs, hs']
      exact ⟨rfl, h₁.refusal _ _ _⟩

theorem tellTick (h : Twins m r r') (news : News) (ls : List (Registered Reaction)) :
    Twins m (Room.tellTick news r ls) (Room.tellTick news r' ls) := by
  induction ls generalizing news r r' with
  | nil => exact h
  | cons l rest ih =>
    obtain ⟨hnews, hroom⟩ := h.react l news
    change Twins m (Room.tellTick (Room.react l news r).1 (Room.react l news r).2 rest)
      (Room.tellTick (Room.react l news r').1 (Room.react l news r').2 rest)
    rw [← hnews]
    exact ih hroom _

theorem afterPulse (h : Twins m r r') (p : Pulse) :
    Twins m (r.afterPulse p) (r'.afterPulse p) :=
  h.aloof (f := fun r => r.afterPulse p) ⟨fun _ => rfl, fun _ => rfl, fun _ _ _ _ => rfl⟩

theorem countTick (h : Twins m r r') :
    Twins m { r with loop := { r.loop with ticksExecuted := r.loop.ticksExecuted + 1 } }
      { r' with loop := { r'.loop with ticksExecuted := r'.loop.ticksExecuted + 1 } } := by
  obtain ⟨hmaking, hheld, ticks, x, y, rfl, hrun⟩ := h
  exact ⟨hmaking, hheld, ticks + 1, x, y, rfl, hrun⟩

theorem pulse (h : Twins m r r') :
    (Pulse.run r'.definition r'.clock r'.gated).outcome r'.pulse =
      (Pulse.run r.definition r.clock r.gated).outcome r.pulse :=
  h.same (fun r => (Pulse.run r.definition r.clock r.gated).outcome r.pulse) fun _ _ _ => rfl

theorem tellAll (h : Twins m r r') (news : News) :
    Twins m (Room.tellTick news r r.loop.tickListeners)
      (Room.tellTick news r' r'.loop.tickListeners) := by
  have hsame : r'.loop.tickListeners = r.loop.tickListeners :=
    h.same (·.loop.tickListeners) fun _ _ _ => rfl
  rw [hsame]
  exact h.tellTick news _

theorem tick (h : Twins m r r') : Twins m r.tick r'.tick := by
  unfold Room.tick
  rw [h.pulse]
  split
  · exact (h.afterPulse _).tellError _
  · rename_i p _
    have htold := (h.afterPulse p).countTick.tellAll
    dsimp only
    split_ifs
    · exact (htold _).halt
    · exact htold _

theorem ticks (h : Twins m r r') (n : Nat) : Twins m (Room.ticks n r) (Room.ticks n r') := by
  induction n generalizing r r' with
  | zero => exact h
  | succ n ih => exact ih h.tick

theorem spendOne (h : Twins m r r') : Twins m r.spendOne r'.spendOne := by
  obtain ⟨hmaking, hheld, ticks, x, y, heq, hrun⟩ := h.tick
  unfold Room.spendOne
  rw [heq]
  refine ⟨hmaking, hheld, ticks, x - r.tick.loop.timestep, y, rfl, fun hrunning => ?_⟩
  obtain ⟨rfl, rfl⟩ := hrun hrunning
  exact ⟨rfl, rfl⟩

theorem spend (h : Twins m r r') (fuel count : Nat) :
    (Room.spend fuel count r).1 = (Room.spend fuel count r').1 ∧
      Twins m (Room.spend fuel count r).2 (Room.spend fuel count r').2 := by
  induction fuel generalizing count r r' with
  | zero => exact ⟨rfl, h⟩
  | succ fuel ih =>
    have hdue : r'.loop.timestep ≤ r'.loop.accumulator ∧ r'.loop.running ↔
        r.loop.timestep ≤ r.loop.accumulator ∧ r.loop.running := by
      obtain ⟨-, -, ticks, x, y, rfl, hrun⟩ := h
      refine and_congr_left fun hrunning => ?_
      obtain ⟨rfl, rfl⟩ := hrun hrunning
      rfl
    rw [spend_succ, spend_succ]
    simp only [hdue]
    split_ifs
    · exact ih h.spendOne _
    · exact ⟨rfl, h⟩

theorem spendAll (h : Twins m r r') (hrun : r.loop.running) :
    (Room.spend r.loop.ticksWithin 0 r).1 = (Room.spend r'.loop.ticksWithin 0 r').1 ∧
      Twins m (Room.spend r.loop.ticksWithin 0 r).2 (Room.spend r'.loop.ticksWithin 0 r').2 := by
  have hfuel : r'.loop.ticksWithin = r.loop.ticksWithin := by
    obtain ⟨-, -, ticks, x, y, rfl, hsame⟩ := h
    obtain ⟨rfl, rfl⟩ := hsame hrun
    rfl
  rw [hfuel]
  exact h.spend _ 0

theorem afterTime (h : Twins m r r') (hrun : r.loop.running) (x : Float) :
    Twins m (r.afterTime x) (r'.afterTime x) := by
  obtain ⟨hmaking, hheld, ticks, y, z, rfl, hsame⟩ := h
  obtain ⟨rfl, rfl⟩ := hsame hrun
  exact ⟨hmaking, hheld, ticks, _, _, rfl, fun _ => ⟨rfl, rfl⟩⟩

/-- The time since the last frame is the same, and a frame that is stopped early is the last one
all the same. -/
theorem elapsed (h : Twins m r r') (hrun : r.loop.running) :
    r'.loop.elapsed = r.loop.elapsed ∧
      Twins m { r with loop := { r.loop with lastTime := r.loop.host } }
        { r' with loop := { r'.loop with lastTime := r'.loop.host } } := by
  obtain ⟨hmaking, hheld, ticks, y, z, rfl, hsame⟩ := h
  obtain ⟨rfl, rfl⟩ := hsame hrun
  exact ⟨rfl, hmaking, hheld, ticks, _, _, rfl, fun _ => ⟨rfl, rfl⟩⟩

theorem frame (h : Twins m r r') : Alike (Twins m) Room.frame r r' := by
  cases hrun : r.loop.running with
  | false =>
    exact alike_iff.2 (.inl ⟨0, r, r', frame_stopped hrun, frame_stopped (h.running.trans hrun), h⟩)
  | true =>
    obtain ⟨helapsed, htimed⟩ := h.elapsed hrun
    have hframe := frame_running hrun
    have hframe' := frame_running (h.running.trans hrun)
    rw [helapsed] at hframe'
    cases he : r.loop.elapsed with
    | error fault =>
      rw [he] at hframe hframe'
      exact alike_iff.2 (.inr ⟨fault, r, r', hframe, hframe', h⟩)
    | ok elapsed =>
      rw [he] at hframe hframe'
      dsimp only at hframe hframe'
      cases hx : elapsed.toFloat with
      | error fault =>
        rw [hx] at hframe hframe'
        exact alike_iff.2 (.inr ⟨fault, _, _, hframe, hframe', htimed⟩)
      | ok x =>
        rw [hx] at hframe hframe'
        -- The two rooms run as many ticks, so one count serves both.
        obtain ⟨hcount, hspent⟩ := (h.afterTime hrun x).spendAll hrun
        dsimp only at hframe hframe'
        rw [← hcount] at hframe'
        exact alike_iff.2 (.inl ⟨_, _, _, hframe, hframe', hspent⟩)

theorem followed (h : Twins m r r') :
    Twins m (if r.threaded && r.loop.running then (Room.frame.outcome r).2 else r)
      (if r'.threaded && r'.loop.running then (Room.frame.outcome r').2 else r') := by
  have hthreaded : r'.threaded = r.threaded := h.same (·.threaded) fun _ _ _ => rfl
  rw [hthreaded, h.running]
  split_ifs
  · exact h.frame.ends
  · exact h

theorem advanceHost (h : Twins m r r') (ms : Json) :
    Alike (Twins m) (Room.advanceHost ms) r r' := by
  refine (h.look fun _ _ _ => rfl).bind fun host _ _ h₁ => ?_
  refine Alike.bind (alike_modify (h₁.withHost host)) fun _ _ _ h₂ => ?_
  refine Alike.bind (alike_modify h₂.followed) fun _ _ _ h₃ => ?_
  exact h₃.get_bind (fun _ _ _ => rfl) (alike_pure h₃ _)

/-! ### Parts of requests -/

theorem glance (h : Twins m r r') {f : Room → Except Fault Json}
    (hf : ∀ ticks x y, f (r.leaving ticks x y) = f r) : Alike (Twins m) (Room.look f) r r' :=
  (h.look hf).map _

theorem submitAll (h : Twins m r r') (asked : List (Json × Json × Json)) :
    Alike (Twins m) (Room.submitAll asked) r r' := by
  induction asked generalizing r r' with
  | nil => exact alike_pure h _
  | cons first rest ih =>
    obtain ⟨action, player, parameters⟩ := first
    exact (h.submit action player parameters).bind fun _ _ _ h₁ =>
      (ih h₁).bind fun _ _ _ h₂ => alike_pure h₂ _

theorem addPlayer (h : Twins m r r') (data : Table Json) :
    Alike (Twins m) (Room.addPlayer data) r r' := by
  refine Alike.bind (h.modify ?_) fun _ _ _ h₁ => h₁.get_bind (fun _ _ _ => rfl)
    ((h₁.look fun _ _ _ => rfl).bind fun _ _ _ h₂ => h₂.change _)
  exact ⟨fun _ => rfl, fun _ => rfl, fun _ _ _ _ => rfl⟩

theorem removePlayer (h : Twins m r r') (id : Json) :
    Alike (Twins m) (Room.removePlayer id) r r' := by
  refine (h.change _).bind fun removed _ _ h₁ => ?_
  cases removed with
  | true =>
    refine Alike.bind (h₁.modify ?_) fun _ _ _ h₂ => alike_pure h₂ _
    exact ⟨fun _ => rfl, fun _ => rfl, fun _ _ _ _ => rfl⟩
  | false => exact alike_pure h₁ _

end Twins

theorem alter_alike {f : Room → Room} (hf : Twins m (f r) (f r')) :
    Alike (Twins m) (alter f) r r' :=
  Alike.bind (alike_modify hf) fun _ _ _ h => alike_pure h _

theorem answered_alike {t : Task Room α} {f : α → Answer} (h : Alike (Twins m) t r r') :
    Alike (Twins m) (do return f (← t) : Task Room Answer) r r' :=
  h.bind fun _ _ _ h₁ => alike_pure h₁ _

theorem aloof_alter_alike (h : Twins m r r') {f : Room → Room} (hf : Aloof f) :
    Alike (Twins m) (alter f) r r' := alter_alike (h.aloof hf)

/-! ### All requests -/

theorem perform_alike (h : Twins m r r') (q : Request) (hq : q ≠ .stats) :
    Alike (Twins m) (perform q) r r' := by
  cases q with
  | advanceClock ms =>
    refine Alike.bind ((h.look fun _ _ _ => rfl).bind fun clock _ _ h₁ =>
      Alike.bind (h₁.modify ?_) fun _ _ _ h₂ => alike_pure h₂ _) fun _ _ _ h₃ => alike_pure h₃ _
    exact ⟨fun _ => rfl, fun _ => rfl, fun _ _ _ _ => rfl⟩
  | setClock ms =>
    refine Alike.bind ((h.look fun _ _ _ => rfl).bind fun clock _ _ h₁ => h₁.modify ?_)
      fun _ _ _ h₂ => alike_pure h₂ _
    exact ⟨fun _ => rfl, fun _ => rfl, fun _ _ _ _ => rfl⟩
  | advanceHost ms => exact answered_alike (h.advanceHost ms)
  | setHost ms =>
    exact Alike.bind ((h.look fun _ _ _ => rfl).bind fun host _ _ h₁ =>
      alike_modify (h₁.withHost host)) fun _ _ _ h₂ => alike_pure h₂ _
  | setVariable name value | modifyVariable name op amount =>
    exact h.get_bind (fun _ _ _ => rfl) (answered_alike (h.onState _))
  | setProperty entity key value =>
    exact (h.look fun _ _ _ => rfl).bind fun _ _ _ h₁ => (h₁.onState _).bind fun _ _ _ h₂ =>
      (h₂.look fun _ _ _ => rfl).bind fun _ _ _ h₃ => (h₃.onState _).bind
        fun _ _ _ h₄ => alike_pure h₄ _
  | addPlayer data =>
    exact (h.look fun _ _ _ => rfl).bind fun data _ _ h₁ => answered_alike (h₁.addPlayer data)
  | removePlayer id => exact answered_alike (h.removePlayer id)
  | dropPlayer id => exact answered_alike (h.change _)
  | updatePlayer id updates =>
    refine h.get_bind (fun _ _ _ => rfl) ?_
    split
    · exact alike_pure h _
    · exact (h.look fun _ _ _ => rfl).bind fun _ _ _ h₁ => answered_alike (h₁.onState _)
  | updateScore id score =>
    exact (h.look fun _ _ _ => rfl).bind fun _ _ _ h₁ => (h₁.onState _).bind
      fun _ _ _ h₂ => alike_pure h₂ _
  | addLog message => exact (h.onState _).bind fun _ _ _ h₁ => alike_pure h₁ _
  | addEvent type message =>
    exact h.get_bind (fun _ _ _ => rfl) (answered_alike (h.onState _))
  | apply effect => exact h.get_bind (fun _ _ _ => rfl) (answered_alike (h.onState _))
  | applyAll effects stopping =>
    exact h.get_bind (fun _ _ _ => rfl) (answered_alike (h.onState _))
  | act action player parameters => exact answered_alike (h.submit action player parameters)
  | submit asked => exact answered_alike (h.submitAll asked)
  | process action player parameters => exact answered_alike (h.process action player parameters)
  | history | playerHistory | allRecent =>
    exact h.get_bind (fun _ _ _ => rfl) (alike_pure h _)
  | recentActions count =>
    exact (h.look fun _ _ _ => rfl).bind fun _ _ _ h₁ =>
      h₁.get_bind (fun _ _ _ => rfl) (alike_pure h₁ _)
  | clearHistory | clearRecent | clearAllCooldowns =>
    exact aloof_alter_alike h ⟨fun _ => rfl, fun _ => rfl, fun _ _ _ _ => rfl⟩
  | setCooldown action player time =>
    refine (h.look fun _ _ _ => rfl).bind fun player _ _ h₁ => ?_
    refine Alike.bind (h₁.modify ?_) fun _ _ _ h₂ => ?_
    · exact ⟨fun _ => rfl, fun _ => rfl, fun _ _ _ _ => rfl⟩
    · exact (h₂.look fun _ _ _ => rfl).bind fun action _ _ h₃ =>
        aloof_alter_alike h₃ ⟨fun _ => rfl, fun _ => rfl, fun _ _ _ _ => rfl⟩
  | clearCooldown action player =>
    refine (h.look fun _ _ _ => rfl).bind fun player _ _ h₁ => h₁.get_bind (fun _ _ _ => rfl) ?_
    split
    · exact alike_pure h₁ _
    · exact (h₁.look fun _ _ _ => rfl).bind fun action _ _ h₂ =>
        aloof_alter_alike h₂ ⟨fun _ => rfl, fun _ => rfl, fun _ _ _ _ => rfl⟩
  | clearPlayerCooldowns player =>
    refine h.get_bind (fun _ _ _ => rfl) ?_
    split
    · exact alike_pure h _
    · exact (h.look fun _ _ _ => rfl).bind fun player _ _ h₁ =>
        aloof_alter_alike h₁ ⟨fun _ => rfl, fun _ => rfl, fun _ _ _ _ => rfl⟩
  | setStatus status =>
    cases hs : Status.ofJson? status with
    | some next =>
      simp only [perform, hs]
      exact answered_alike (h.change _)
    | none =>
      simp only [perform, hs]
      exact alike_pure h _
  | startGame | pauseGame | resumeGame => exact answered_alike (h.change _)
  | endGame winner => exact (h.onState _).bind fun _ _ _ h₁ => alike_pure h₁ _
  | incrementTick =>
    exact (h.onState _).bind fun _ _ _ h₁ => h₁.get_bind (fun _ _ _ => rfl) (alike_pure h₁ _)
  | renew => exact h.renew.bind fun _ _ _ h₁ => alike_pure h₁ _
  | reset => exact h.reset.bind fun _ _ _ h₁ => alike_pure h₁ _
  | close => exact alter_alike h.close
  | start | resume => exact answered_alike (alike_modifyGet h.start.1 h.start.2)
  | stop | pause => exact alter_alike h.stop
  | frame => exact answered_alike h.frame
  | forceTick =>
    exact Alike.bind (alike_modify h.tick) fun _ _ _ h₁ =>
      h₁.get_bind (fun _ _ _ => rfl) (alike_pure h₁ _)
  | forceTicks count =>
    refine Alike.bind (alike_modify (h.ticks count)) fun _ _ _ h₁ => ?_
    split
    · exact alike_pure h₁ _
    · exact h₁.get_bind (fun _ _ _ => rfl) (alike_pure h₁ _)
  | destroy => exact alter_alike h.destroy
  | resetTracking => exact alter_alike h.forgetTracking
  | setTimestep ms =>
    refine Alike.bind_eq (h.look fun _ _ _ => rfl) fun timestep r₁ r₁' hlook h₁ => ?_
    have hheld := Loop.timestepOf_held (ok_of_look hlook).1
    obtain ⟨hmaking, -, ticks, x, y, rfl, hrun⟩ := h₁
    exact alter_alike ⟨hmaking, hheld, ticks, x, y, rfl, hrun⟩
  | onTick | onError | removeTick | removeError =>
    obtain ⟨hmaking, hheld, ticks, x, y, rfl, hrun⟩ := h
    exact alter_alike ⟨hmaking, hheld, ticks, x, y, rfl, hrun⟩
  | seen =>
    exact h.modifyGet (fun _ _ _ => rfl) ⟨fun _ => rfl, fun _ => rfl, fun _ _ _ _ => rfl⟩
  | snapshot => exact (h.look fun _ _ _ => rfl).bind fun _ _ _ h₁ => alike_pure h₁ _
  | stats => exact absurd rfl hq
  | timestamp | getVariable | getEntity | getProperty | getPlayer | hasPlayer | getScore | getScores
  | getLogs | getEvents | checkCondition | evaluateNumber | evaluateAll | isShutDown
  | checkRequirement | availableActions | cooldownStatus | actionCooldowns | isRunning | statusWord
  | currentTick | summary | stateSummary | state => exact h.glance fun _ _ _ => rfl

end Gameroom.Room
