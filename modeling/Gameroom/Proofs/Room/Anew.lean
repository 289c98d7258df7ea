import Gameroom.Proofs.Definition.Parsed
import Gameroom.Proofs.Room.Twins

/-!
A room that is reset is like a new room with the same listeners, made as it was made, with the time
step, the clocks, the source and the ids that it has now.
-/

namespace Gameroom.Room

namespace Options

def making (d : Definition) (o : Options) : Making :=
  ⟨d, o.idOf, o.config.maxFrame, o.gated, o.threaded⟩

/-- The options for a room that is to stand where another one stands now. -/
def now (o : Options) (r : Room) : Options :=
  { o with
    id := some r.id
    config := { o.config with timestep := .float r.loop.timestep }
    clock := r.clock
    host := r.loop.host
    source := some r.source
    ids := r.ids }

end Options

/-- A room that the listeners of another one listen to, with what they noted before. -/
def heard (r fresh : Room) : Room :=
  { fresh with
    loop := { fresh.loop with
      tickListeners := r.loop.tickListeners, errorListeners := r.loop.errorListeners }
    tickNotes := r.tickNotes
    errorNotes := r.errorNotes }

/-- A new room in the place of another one. -/
def anew (d : Definition) (o : Options) (r : Room) : Except Fault Room :=
  heard r <$> create d (o.now r)

/-- An answer without the count of the ticks that came to their end, which is one of the figures of
the loop. -/
def Request.told (q : Request) (answer : Except Fault Answer) : Except Fault Answer :=
  match q, answer with
  | .stats, .ok (.document (.object fields)) =>
    .ok (.document (.object (Table.drop fields "ticks_executed")))
  | _, answer => answer

/-- Whatever is asked of two rooms from now on, the answers and the states of play are the same. -/
def SameFromNow (r r' : Room) : Prop :=
  ∀ qs : List Request,
    List.zipWith Request.told qs (run qs r).1 = List.zipWith Request.told qs (run qs r').1 ∧
      (run qs r).2.state = (run qs r').2.state

variable {m : Making} {r r' : Room} {d : Definition} {o : Options}

theorem Request.told_of_ne {q : Request} (hq : q ≠ .stats) (answer : Except Fault Answer) :
    q.told answer = answer := by
  unfold told
  split
  · exact absurd rfl hq
  · rfl

theorem perform_stats (r : Room) :
    (perform .stats).outcome r = (.ok (.document (.object r.stats)), r) := rfl

theorem perform_twins (h : Twins m r r') (q : Request) :
    q.told ((perform q).outcome r).1 = q.told ((perform q).outcome r').1 ∧
      Twins m ((perform q).outcome r).2 ((perform q).outcome r').2 := by
  by_cases hq : q = .stats
  · subst hq
    rw [perform_stats, perform_stats]
    refine ⟨?_, h⟩
    obtain ⟨-, -, ticks, x, y, rfl, -⟩ := h
    simp only [Request.told, stats, Table.drop, leaving]
    rfl
  · obtain ⟨hsame, hends⟩ := perform_alike h q hq
    rw [Request.told_of_ne hq, Request.told_of_ne hq]
    exact ⟨hsame, hends⟩

theorem run_twins (h : Twins m r r') (qs : List Request) :
    List.zipWith Request.told qs (run qs r).1 = List.zipWith Request.told qs (run qs r').1 ∧
      Twins m (run qs r).2 (run qs r').2 := by
  induction qs generalizing r r' with
  | nil => exact ⟨rfl, h⟩
  | cons q qs ih =>
    obtain ⟨hanswer, hnext⟩ := perform_twins h q
    obtain ⟨hrest, hend⟩ := ih hnext
    exact ⟨congrArg₂ List.cons hanswer hrest, hend⟩

theorem Twins.sameFromNow (h : Twins m r r') : SameFromNow r r' := fun qs =>
  ⟨(run_twins h qs).1, (run_twins h qs).2.state.symm⟩

theorem create_twins (h : create d o = .ok r) : Twins (o.making d) r r := by
  obtain ⟨s, source, timestep, -, htimestep, rfl⟩ := made_of_create h
  exact .refl rfl (Loop.timestepOf_held htimestep)

theorem idOf_ne (o : Options) : o.idOf ≠ "" := by
  unfold Options.idOf
  split_ifs with h
  · simp [roomId]
  · simpa [Options.isUnnamed] using h

theorem now_id (h : r.id ≠ "") : (o.now r).idOf = r.id ∧ (o.now r).idsAfter = r.ids := by
  have hnamed : ¬(o.now r).isUnnamed = true := fun hempty => h (of_decide_eq_true hempty)
  exact ⟨if_neg hnamed, if_neg hnamed⟩

theorem stop_eq (r : Room) :
    ∃ s x, r.stop =
      { r with state := s, loop := { r.loop with running := false, accumulator := x } } := by
  cases hrun : r.loop.running with
  | true =>
    rw [stop_of_running hrun, halt_of_running hrun]
    exact ⟨_, 0, rfl⟩
  | false =>
    rw [stop_of_stopped hrun, ← hrun]
    exact ⟨r.state, r.loop.accumulator, rfl⟩

theorem create_error {fault : Fault} {source : Source}
    (h : State.initial d o.clock (o.sourceFor d) = .error fault source) :
    create d o = .error fault := by
  rw [create, h]
  rfl

theorem perform_reset_error {fault : Fault} {source : Source}
    (h : State.initial r.definition r.clock r.source = .error fault source) :
    ((perform .reset).outcome r).1 = .error fault := by
  obtain ⟨s, x, hstop⟩ := stop_eq r
  have hrenew : renew r.stop = .error fault { r.stop with source } :=
    renew_error (by rwa [hstop])
  rw [perform, Task.outcome_error (Task.bind_error (reset_error hrenew))]

theorem perform_reset_ok {s : State} {source : Source}
    (h : State.initial r.definition r.clock r.source = .ok s source) :
    ∃ x, (perform .reset).outcome r = (.ok .null, { r with
      state := s, source, recent := #[], cooldowns := [], history := #[], met := [], firedAt := []
      loop := { r.loop with running := false, accumulator := x } }) := by
  obtain ⟨s', x, hstop⟩ := stop_eq r
  have hrenew : renew r.stop = .ok () { r.stop with state := s, source, recent := #[] } :=
    renew_ok (by rwa [hstop])
  have hreset := reset_ok hrenew
  rw [hstop] at hreset
  exact ⟨x, Task.outcome_ok (Task.bind_ok hreset)⟩

/-- A reset and a new room draw the first values alike, and all that is left besides is the past of
the loop. -/
theorem reset_twins (h : Twins (o.making d) r r) (hopen : r.closed = false) :
    (∀ fault, anew d o r = .error fault → ((perform .reset).outcome r).1 = .error fault) ∧
      ∀ fresh, anew d o r = .ok fresh → ∃ r', (perform .reset).outcome r = (.ok .null, r') ∧
        Twins (o.making d) fresh r' := by
  obtain ⟨rfl, hid, hmax, hgated, hthreaded⟩ := Making.mk.inj h.making
  cases hs : State.initial r.definition r.clock r.source with
  | error fault source =>
    have hanew : anew r.definition o r = .error fault := by
      rw [anew, create_error hs]
      rfl
    rw [hanew]
    refine ⟨fun fault' h => ?_, fun fresh h => by cases h⟩
    obtain rfl := Except.error.inj h
    exact perform_reset_error hs
  | ok s source =>
    obtain ⟨x, hreset⟩ := perform_reset_ok hs
    rw [anew, create_eq (o := o.now r) hs h.held]
    refine ⟨fun fault h => (by cases h), fun fresh hfresh => ⟨_, hreset, ?_⟩⟩
    obtain rfl := Except.ok.inj hfresh
    obtain ⟨hroom, hids⟩ := now_id (hid ▸ idOf_ne o)
    refine ⟨?_, h.held, r.loop.ticksExecuted, x, r.loop.lastTime, ?_, nofun⟩
    · rw [making, heard, made, hroom, hid]
      rfl
    · simp only [leaving, heard, made, hroom, hids, Loop.idle, hmax, hgated, hthreaded, hopen]
      rfl

/-- A reset leaves nothing of what was: from then on the room is like a new one. -/
theorem reset_sameFromNow {r₀ : Room} (hr : create d o = .ok r₀) (qs : List Request)
    (hopen : (run qs r₀).2.closed = false) :
    (∀ fault, anew d o (run qs r₀).2 = .error fault →
      ((perform .reset).outcome (run qs r₀).2).1 = .error fault) ∧
      ∀ fresh, anew d o (run qs r₀).2 = .ok fresh →
        ∃ r, (perform .reset).outcome (run qs r₀).2 = (.ok .null, r) ∧ SameFromNow r fresh := by
  have h : Twins (o.making d) (run qs r₀).2 (run qs r₀).2 := (run_twins (create_twins hr) qs).2
  obtain ⟨herror, hok⟩ := reset_twins h hopen
  refine ⟨herror, fun fresh hfresh => ?_⟩
  obtain ⟨r, hreset, htwins⟩ := hok fresh hfresh
  exact ⟨r, hreset, fun qs => ⟨(htwins.sameFromNow qs).1.symm, (htwins.sameFromNow qs).2.symm⟩⟩

def climb : Table Json :=
  [("meta", .object []),
    ("vars", .object [("level", .object [("value", .int 0), ("min", .int 0), ("max", .int 10)])]),
    ("rules", .list [.object [("trigger", .text "tick"), ("effects", .list [
      .object [("type", .text "modify_var"), ("target", .text "level"), ("operation", .text "add"),
        ("value", .int 1)]])]])]

/-- A player comes, a listener comes, the level rises, and the time step is set. -/
def climbing : List Request :=
  [.start, .addPlayer (.object []), .onTick "watch" .record, .forceTick, .setTimestep (.int 32)]

theorem reset_sameFromNow_climb :
    ∃ d r₀ fresh r, d.Parsed ∧ create d .still = .ok r₀ ∧
      (run climbing r₀).2.state.vars.get? "level" = some (.int 1) ∧
      (run climbing r₀).2.closed = false ∧ anew d .still (run climbing r₀).2 = .ok fresh ∧
      (perform .reset).outcome (run climbing r₀).2 = (.ok .null, r) ∧ SameFromNow r fresh := by
  obtain ⟨d, hd⟩ : ∃ d, Definition.ofFields climb = .ok d := ⟨_, rfl⟩
  obtain ⟨r₀, hr⟩ : ∃ r, create d .still = .ok r := by
    cases hd
    exact ⟨_, rfl⟩
  have hlevel : (run climbing r₀).2.state.vars.get? "level" = some (.int 1) := by
    cases hd
    cases hr
    decide +kernel
  have hopen : (run climbing r₀).2.closed = false := by
    cases hd
    cases hr
    decide +kernel
  have hmade : (anew d .still (run climbing r₀).2).isOk := by
    cases hd
    cases hr
    decide +kernel
  cases hfresh : anew d .still (run climbing r₀).2 with
  | error fault =>
    rw [hfresh] at hmade
    cases hmade
  | ok fresh =>
    obtain ⟨r, hreset, hsame⟩ := (reset_sameFromNow hr climbing hopen).2 fresh hfresh
    exact ⟨d, r₀, fresh, r, ⟨climb, hd⟩, hr, hlevel, hopen, hfresh, hreset, hsame⟩

end Gameroom.Room
