import Gameroom.Proofs.Random.Unit
import Gameroom.Proofs.Reactor.Phases
import Gameroom.Proofs.Room.Started

/-!
Safety of the reactor game. Whatever players do, whatever samples are drawn and however time passes,
a plant that is shut down has no power, the game is over exactly if there was a meltdown, and there
was an alarm before it.
-/

namespace Gameroom

namespace State

theorem recorded_leaves (e : Execution) (s : State) : ∃ players lastAction lastActionTime,
    s.recorded e = { s with players, lastAction, lastActionTime } := by
  unfold recorded listed followed
  cases e.action <;> dsimp only <;> split <;> exact ⟨_, _, _, rfl⟩

theorem removePlayer_leaves (id : Json) (s : State) : ∃ players,
    (removePlayer id s).2 = { s with players } := by
  unfold removePlayer
  split
  · split_ifs <;> exact ⟨_, rfl⟩
  · exact ⟨_, rfl⟩

end State

namespace Room

/-- Whether players come, go or act, time passes, the game starts all over, or someone looks,
listens or sets up the loop. -/
def Request.plays : Request → Bool
  | .addPlayer _ | .removePlayer _ | .reset => true
  | q => q.isCourse || q.setsClock || q.isIdle

theorem idle_met {q : Request} (hq : q.isIdle) (r : Room) :
    ((perform q).outcome r).2.met = r.met ∨ ((perform q).outcome r).2.met = [] := by
  by_cases hlook : q.setsUp = false
  · rw [← perform_look hq hlook r]
    exact .inl rfl
  · cases q with
    | resetTracking => exact .inr rfl
    | setTimestep ms => exact .inl (setTimestep_calm ms r).met
    | setHost | onTick | onError | removeTick | removeError | seen =>
      exact .inl (perform_still rfl r).met
    | _ => exact absurd rfl hlook

end Room

namespace Reactor
variable {seed : Option Number} {may : Bool} {met : List Nat} {s : State} {r r' : Room}

/-! ### What is promised of a state -/

/-- What is promised of every state of a reactor game. -/
structure Contained (s : State) : Prop where
  /-- A plant is shut down and without power, or it is online. -/
  coupled :
    (s.property "reactor" "emergency_shutdown" = .bool true ∧
      s.property "reactor" "status" = .text "shutdown" ∧ s.vars.get? "power" = some (.int 0)) ∨
    (s.property "reactor" "emergency_shutdown" = .bool false ∧
      s.property "reactor" "status" = .text "online")
  pressure : s.vars.get? "pressure" = some (.int 15)
  finished : s.status = .finished ↔ Molten s
  alarmed : ∀ before e after, s.events.toList = before ++ e :: after → IsMeltdown e →
    ∃ a ∈ before, IsAlarm a

theorem Safe.contained (h : Safe may met s) : Contained s := by
  obtain ⟨p, hp, -⟩ := h.plant
  refine ⟨?_, by rw [hp.vars]; rfl, h.feed.finished, h.feed.alarmed⟩
  have hproperty (key : String) : s.property "reactor" key = Json.field
      [("control_rods_position", .int p.rods), ("emergency_shutdown", .bool p.shutdown),
        ("status", .text (if p.shutdown then "shutdown" else "online"))] key := by
    rw [State.property, hp.entities]
    rfl
  rw [hproperty, hproperty, hp.vars]
  cases hshut : p.shutdown with
  | true => exact .inl ⟨rfl, rfl, congrArg some (hp.sound.shutdown hshut)⟩
  | false => exact .inr ⟨rfl, rfl⟩

/-! ### Changes of a room -/

theorem Safe.recorded (h : Safe may met s) (e : Execution) : Safe may met (s.recorded e) := by
  obtain ⟨players, lastAction, lastActionTime, hs⟩ := s.recorded_leaves e
  rw [hs]
  exact h.same rfl rfl rfl .rfl

theorem Safe.pause (h : Safe may met s) : Safe may met s.pause.2 := by
  unfold State.pause State.setStatus
  split_ifs with hrunning
  · exact h.same rfl rfl rfl (by simp [hrunning])
  · exact h
  · exact h

/-- A room in which a reactor game is played. -/
structure InGame (seed : Option Number) (r : Room) : Prop where
  definition : r.definition = definition seed
  years : Timestamp.InYears r.clock
  unit : r.source.InUnit
  safe : Safe true r.met r.state

/-- What rooms have in common that differ at most in the state and in what is remembered. -/
theorem InGame.moved (h : InGame seed r) (hdefinition : r'.definition = r.definition)
    (hclock : r'.clock = r.clock) (hsource : r'.source = r.source)
    (hsafe : Safe true r'.met r'.state) : InGame seed r' :=
  ⟨hdefinition.trans h.definition, hclock ▸ h.years, hsource ▸ h.unit, hsafe⟩

theorem InGame.work (h : InGame seed r) : InGame seed (r.afterPulse r.pulsed) := by
  have hsource := (Pulse.run_moves (Effect.obey_evolves r.clock r.definition.effects) r.gated
    r.pulse).source
  refine ⟨h.definition, h.years, Source.SameGiven.inUnit hsource h.unit, ?_⟩
  have hsafe := run_safe seed h.years r.gated r.pulse h.safe
  rwa [← h.definition] at hsafe

theorem InGame.process (h : InGame seed r) (action player parameters : Json) :
    InGame seed (Room.process action player parameters r).2 := by
  have hattempt : Safe true r.met (r.attempted action player parameters).2.state := by
    refine Action.attempt_follows (R := Keeps (Safe true r.met)) ?_ ?_ action player _
      (r.bench (Room.parametersOf parameters).1) h.safe
    · rw [h.definition]
      exact action_obeys h.years
    · rw [h.definition]
      exact fun r hr => absurd hr (List.not_mem_nil)
  refine h.moved rfl rfl rfl ?_
  have hrecord := hattempt.recorded (Room.process action player parameters r).1
  exact Room.record_state (Room.process action player parameters r).1 { r with
    state := (r.attempted action player parameters).2.state
    cooldowns := (r.attempted action player parameters).2.cooldowns } ▸ hrecord

theorem InGame.halt (h : InGame seed r) : InGame seed r.halt := by
  unfold Room.halt
  split_ifs
  · exact h.moved rfl rfl rfl h.safe
  · exact h

theorem InGame.stop (h : InGame seed r) : InGame seed r.stop := by
  unfold Room.stop
  split_ifs
  · exact h.halt.moved rfl rfl rfl h.halt.safe.pause
  · exact h

theorem InGame.start (h : InGame seed r) : InGame seed r.start.2 := by
  rcases Room.start_cases r with ⟨-, hs⟩ | ⟨hstopped, hs⟩ | ⟨-, -, hs⟩
  · rw [hs]
    exact h
  · have hstatus : r.state.status ≠ .finished := by
      intro hfinished
      rw [Room.start, hstopped, State.start, State.setStatus, hfinished] at hs
      simp [Status.permits] at hs
    rw [hs]
    exact h.moved rfl rfl rfl (h.safe.same rfl rfl rfl (by simp [hstatus]))
  · rw [hs]
    exact h

theorem driven_inGame : Room.Driven (Keeps (InGame seed)) where
  work _ h := h.work
  act action player parameters _ h := h.process action player parameters
  start _ h := h.start
  stop _ h := h.stop
  halt _ h := h.halt
  loop _ _ _ _ _ h := h.moved rfl rfl rfl h.safe
  notes _ _ _ h := h.moved rfl rfl rfl h.safe
  time _ _ _ _ h := h.moved rfl rfl rfl h.safe

/-! ### The first state -/

theorem initial_safe {now : Float} {source source' : Source} (hunit : source.InUnit)
    (h : State.initial (definition seed) now source = .ok s source') : Safe true [] s := by
  obtain ⟨values, source₁, hdraw, hend⟩ := Task.ok_of_bind h
  obtain ⟨x, source₂, hx, hvalues⟩ := Task.ok_of_bind hdraw
  cases hend
  cases hvalues
  obtain ⟨hlow, hhigh⟩ := Source.uniform_between (by decide) (by decide) (by decide) hunit hx
  have htemperature : Gauge 1000 x :=
    .inr ⟨Number.le_trans (Number.int_le_int.2 (by decide)) hlow,
      Number.lt_of_le_of_lt hhigh (Number.int_lt_int.2 (by decide))⟩
  refine ⟨⟨⟨.int 50, x, .int 80, .int 0, 50, false, true⟩, ⟨?_, rfl, rfl⟩, fun _ => rfl⟩, ?_⟩
  · exact ⟨gauge_int (by decide) (by decide), htemperature, gauge_int (by decide) (by decide),
      gauge_int (by decide) (by decide), show (0 : Int) ≤ 50 ∧ (50 : Int) ≤ 100 by decide, by simp⟩
  · exact ⟨by simp [State.fresh, Molten], by simp [State.fresh], by simp, by simp⟩

theorem initial_unit {now : Float} {source source' : Source} (hunit : source.InUnit)
    {d : Definition} (h : State.initial d now source = .ok s source') : source'.InUnit := by
  have hgiven := State.initial_given (d := d) now source
  rw [Task.Moves, Task.outcome_ok h] at hgiven
  exact hgiven.inUnit hunit

/-! ### Requests -/

theorem InGame.reset (h : InGame seed r) : InGame seed ((Room.perform .reset).outcome r).2 := by
  have hstop := h.stop
  rcases Room.reset_end r with ⟨fault, source, hs, hend⟩ | ⟨s, source, hs, hend⟩ <;> rw [hend]
  · have hgiven := State.initial_given (d := r.definition) r.clock r.source
    rw [Task.Moves, Task.outcome_error hs] at hgiven
    exact ⟨hstop.definition, hstop.years, hgiven.inUnit h.unit, hstop.safe⟩
  · refine ⟨hstop.definition, hstop.years, initial_unit h.unit hs, ?_⟩
    rw [h.definition] at hs
    exact initial_safe h.unit hs

/-- Whatever is asked by which the game is played, it stays one in which all is safe, if the clock
stays inside the years that have timestamps. -/
theorem InGame.perform (h : InGame seed r) {q : Room.Request} (hq : q.plays)
    (hyears : Timestamp.InYears ((Room.perform q).outcome r).2.clock) :
    InGame seed ((Room.perform q).outcome r).2 := by
  cases q.aim with
  | looks hidle | setsUp hidle =>
    have hlook := Room.perform_idle hidle r
    refine h.moved hlook.aside.definition hlook.aside.clock hlook.source ?_
    have hsafe := h.safe
    rw [hlook.aside.state]
    rcases Room.idle_met hidle r with hmet | hmet <;> rw [hmet]
    · exact hsafe
    · -- To forget an edge is safe: the feed answers only for what is remembered.
      exact ⟨hsafe.plant, hsafe.feed.remembered (by simp) (by simp)⟩
  | course hcourse => exact driven_inGame.perform hcourse r h
  | clock hclock =>
    obtain ⟨clock, hend⟩ := Room.perform_clock q r hclock
    rw [hend] at hyears ⊢
    exact ⟨h.definition, hyears, h.unit, h.safe⟩
  | join data =>
    rcases Room.join_cases data r with ⟨fault, ids, hend⟩ | ⟨p, -, -, hend⟩ <;> rw [hend]
    · exact h.moved rfl rfl rfl h.safe
    · exact h.moved rfl rfl rfl (h.safe.same rfl rfl rfl .rfl)
  | leave id =>
    rw [Room.perform, Room.outcome_bind_pure]
    have hstill : Room.Still r ((Room.removePlayer id).outcome r).2 := Room.removePlayer_still id r
    refine h.moved hstill.definition hstill.clock hstill.source ?_
    rw [hstill.met, Room.removePlayer_state]
    obtain ⟨players, hs⟩ := r.state.removePlayer_leaves id
    rw [hs]
    exact h.safe.same rfl rfl rfl .rfl
  | reset => exact h.reset
  | edits h | cooldowns h => cases q <;> first | (cases hq; done) | cases h
  | drop | renew | destroy | close | count | clearHistory | clearRecent => cases hq

theorem InGame.run (h : InGame seed r) {qs : List Room.Request} (hqs : ∀ q ∈ qs, q.plays)
    (hyears : ∀ before, before <+: qs → Timestamp.InYears (Room.run before r).2.clock) :
    (∀ before, before <+: qs → InGame seed (Room.run before r).2) ∧
      ∀ b ∈ Room.ticksOver qs r, InGame seed b := by
  induction qs generalizing r with
  | nil =>
    refine ⟨fun before hbefore => ?_, by simp [Room.ticksOver]⟩
    rw [List.prefix_nil.1 hbefore]
    exact h
  | cons q qs ih =>
    rw [List.forall_mem_cons] at hqs
    have hnext : InGame seed ((Room.perform q).outcome r).2 :=
      h.perform hqs.1 (hyears [q] (List.prefix_append [q] qs))
    obtain ⟨hstates, hticks⟩ := ih hnext hqs.2 fun before hbefore =>
      hyears (q :: before) (List.cons_prefix_cons.2 ⟨rfl, hbefore⟩)
    refine ⟨fun before hbefore => ?_, fun b hb => ?_⟩
    · cases before with
      | nil => exact h
      | cons q' before =>
        obtain ⟨rfl, hrest⟩ := List.cons_prefix_cons.1 hbefore
        exact hstates before hrest
    · rcases List.mem_append.1 hb with hb | hb
      · exact driven_inGame.ticksOn q r b hb h
      · exact hticks b hb

theorem inGame_create {o : Room.Options} (hr : Room.create (definition seed) o = .ok r)
    (hunit : (o.sourceFor (definition seed)).InUnit) (hyears : Timestamp.InYears r.clock) :
    InGame seed r := by
  unfold Room.create at hr
  cases hs : State.initial (definition seed) o.clock (o.sourceFor (definition seed)) with
  | error fault source =>
    rw [hs] at hr
    cases hr
  | ok s source =>
    rw [hs] at hr
    obtain ⟨timestep, -, hr⟩ := ok_of_bind hr
    cases hr
    exact ⟨rfl, hyears, initial_unit hunit hs, initial_safe hunit hs⟩

theorem InGame.tick_tooHot (h : InGame seed r) {p : Pulse}
    (hbegun : Pulse.beginning r.definition r.clock r.pulse = .ok () p) (hhot : TooHot p.state) :
    r.tick.state.status = .finished := by
  have hafter : InGame seed r.tick := driven_inGame.tick r h
  have hmet : r.tick.met = r.pulsed.met := (Room.tick_still r).met
  have hmolten := hafter.safe.feed.molten
  rw [h.definition] at hbegun
  rw [hmet, Room.pulsed, h.definition] at hmolten
  exact hafter.safe.feed.finished.2
    (hmolten (run_tooHot seed h.years r.gated h.safe hbegun hhot))

/-- Over every run of a reactor game with samples from 0 up to 1 and a clock inside the years that
have timestamps: every state between requests is contained, and a tick whose condition rules find
the core too hot ends the game. -/
theorem contained_throughout {o : Room.Options} (hr : Room.create (definition seed) o = .ok r)
    (hunit : (o.sourceFor (definition seed)).InUnit) {qs : List Room.Request}
    (hqs : ∀ q ∈ qs, q.plays)
    (hyears : ∀ before, before <+: qs → Timestamp.InYears (Room.run before r).2.clock) :
    (∀ before, before <+: qs → Contained (Room.run before r).2.state) ∧
      ∀ b ∈ Room.ticksOver qs r, ∀ p,
        Pulse.beginning b.definition b.clock b.pulse = .ok () p → TooHot p.state →
          b.tick.state.status = .finished := by
  obtain ⟨hstates, hticks⟩ :=
    (inGame_create hr hunit (hyears [] (List.nil_prefix))).run hqs hyears
  exact ⟨fun before hbefore => (hstates before hbefore).safe.contained,
    fun b hb p hbegun hhot => (hticks b hb).tick_tooHot hbegun hhot⟩

def heatable : Room.Options := { Room.Options.still with source := some (.cycle [.float 0.5] 0) }

/-- Power is raised as often as it takes, with time to rest in between, and then comes a tick. -/
def overheating : List Room.Request :=
  .addPlayer .null :: (List.replicate 28 [.act (.text "raise_power") (.text (playerId 1)) .null,
    .advanceClock (.int 2000)]).flatten ++ [.forceTick]

theorem contained_throughout_overheating : ∃ r b p,
    Room.create (definition none) heatable = .ok r ∧ b ∈ Room.ticksOver overheating r ∧
      Pulse.beginning b.definition b.clock b.pulse = .ok () p ∧ TooHot p.state ∧
      Contained (Room.run overheating r).2.state ∧ b.tick.state.status = .finished := by
  obtain ⟨r, hr⟩ : ∃ r, Room.create (definition none) heatable = .ok r := ⟨_, rfl⟩
  have hunit : (heatable.sourceFor (definition none)).InUnit := by
    intro samples hsamples
    cases hsamples
    decide +kernel
  have hyears : ∀ before ∈ overheating.inits, Timestamp.InYears (Room.run before r).2.clock := by
    cases hr
    decide +kernel
  obtain ⟨hstates, hticks⟩ := contained_throughout hr hunit
    (show ∀ q ∈ overheating, q.plays by decide)
    fun before hbefore => hyears before ((List.mem_inits _ _).2 hbefore)
  have hhot : (Room.ticksOver overheating r).any fun b =>
      ((Pulse.beginning b.definition b.clock).outcome b.pulse).1.isOk &&
        (((Pulse.beginning b.definition b.clock).outcome b.pulse).2.state.vars.get?
          "temperature").any fun n => (Number.int 1000).le n := by
    cases hr
    decide +kernel
  obtain ⟨b, hb, hfound⟩ := List.any_eq_true.1 hhot
  cases hbegun : Pulse.beginning b.definition b.clock b.pulse with
  | error fault p =>
    rw [Task.outcome_error hbegun] at hfound
    cases hfound
  | ok done p =>
    rw [Task.outcome_ok hbegun] at hfound
    obtain ⟨n, hn, hle⟩ := (Option.any_eq_true _ _).1 (Bool.and_eq_true_iff.1 hfound).2
    exact ⟨r, b, p, hr, hb, hbegun, .inl ⟨n, hn, hle⟩, hstates _ (List.prefix_refl _),
      hticks b hb p hbegun (.inl ⟨n, hn, hle⟩)⟩

end Reactor
end Gameroom
