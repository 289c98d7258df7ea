import Gameroom.Proofs.Cooldown.Spacing
import Gameroom.Proofs.Random.Sample
import Gameroom.Proofs.Room.Draws

/-!
What random events keep to when they happen, over all ticks: their probability, their conditions,
the gate, and the cooldown that lies between an event and the last one of its name.
-/

namespace Gameroom

/-- A random event that happened. -/
structure Firing where
  place : Nat
  event : RandomEvent
  time : Float
  sample : Number
  /-- What the tick works on once the sample is drawn. -/
  before : Pulse

namespace Firing

/-- A firing says what is there: the event of its place, a sample that was drawn and is not above
the probability of the event, which is above zero, and a state in which all its conditions hold. -/
structure Tells (d : Definition) (now : Float) (f : Firing) : Prop where
  event : d.randomEvents[f.place]? = some f.event
  time : f.time = now
  sampled : ∃ source, Source.Gives f.sample source f.before.source
  probable : f.event.probability.isPositive
  drawn : f.event.probability.lt f.sample = false
  conditions : ∀ c ∈ f.event.conditions, f.before.state.holds (.text c) = .ok true

/-- An event that happens in a state applies its effects to it. -/
def Acts (d : Definition) (f : Firing) (s s' : State) : Prop :=
  s = f.before.state ∧ s' = ((Effect.applyAll d f.time false f.event.effects).outcome s).2

/-- An event that happens does not rest, and its time is noted under its name. -/
def Marks (f : Firing) (t t' : Table Float) : Prop :=
  f.event.rests f.time t = false ∧ t' = t.put f.event.name f.time

/-- Between firings of events of one name, so of one event too, lies the cooldown of the later. -/
def Apart (f f' : Firing) : Prop := f.event.name = f'.event.name →
  ∀ c, f'.event.cooldown = some c → c.isPositive → c.le (.float (f'.time - f.time))

theorem Tells.sample_le {d : Definition} {now : Float} {f : Firing} (h : f.Tells d now)
    (hsource : f.before.source.Numbers) : f.sample.le f.event.probability := by
  obtain ⟨source, hgives⟩ := h.sampled
  have hgiven : f.before.source.given? = source.given? := Source.sample_given hgives
  have hsample : f.sample.isNaN = false :=
    Source.sample_notNaN (Source.Numbers.of_given hgiven.symm hsource) hgives
  have hprobability := (Number.notNaN_of_lt h.probable).2
  exact Number.le_of_not_lt hprobability hsample (Bool.eq_false_iff.1 h.drawn)

/-! ### Cooldowns -/

theorem Marks.elapsed {f : Firing} {t t' : Table Float} {last : Float} {c : Number}
    (h : f.Marks t t') (hlast : t.get? f.event.name = some last) (hfinite : f.time.isFinite)
    (hfin : last.isFinite) (hcooldown : f.event.cooldown = some c) (hpos : c.isPositive) :
    c.le (.float (f.time - last)) := by
  have helapsed : (Number.float (f.time - last)).isNaN = false := Grid.sub_notNaN hfinite hfin
  have hrested := h.1
  rw [RandomEvent.rests, hcooldown, hlast] at hrested
  dsimp only at hrested
  rw [Number.isZero_of_isPositive hpos, Bool.not_false, Bool.true_and] at hrested
  exact Number.le_of_not_lt helapsed (Number.notNaN_of_lt hpos).2 (Bool.eq_false_iff.1 hrested)

theorem apart_of_marks {f : Firing} {fs : List Firing} {t t' : Table Float} {last : Float}
    (h : Chain Marks fs t t') (hlast : t.get? f.event.name = some last) (hfin : last.isFinite)
    (hle : f.time ≤ last) (hfinite : f.time.isFinite)
    (hfs : ∀ f' ∈ fs, f'.time.isFinite ∧ f.time ≤ f'.time) : ∀ f' ∈ fs, f.Apart f' := by
  -- Under the name of the firing the table notes a time that is no sooner, whichever of the later
  -- firings noted it.
  induction h generalizing last with
  | nil => simp
  | @cons f' fs t t' t'' hmarks _ ih =>
    rw [List.forall_mem_cons] at hfs
    obtain ⟨hfinite', hlater⟩ := hfs.1
    refine List.forall_mem_cons.2 ⟨fun hname c hcooldown hpos => ?_, ?_⟩
    · rw [hname] at hlast
      have helapsed := hmarks.elapsed hlast hfinite' hfin hcooldown hpos
      have hlonger : f'.time - last ≤ f'.time - f.time :=
        Grid.sub_le_sub hfinite' hfinite hfin hle
      exact Number.le_trans helapsed (Number.float_le hlonger)
    · rw [hmarks.2] at ih
      by_cases hname : f'.event.name = f.event.name
      · exact ih (by rw [Table.get?_put, if_pos hname]) hfinite' hlater hfs.2
      · exact ih (by rw [Table.get?_put, if_neg hname, hlast]) hfin hle hfs.2

theorem pairwise_apart {fs : List Firing} {t t' : Table Float} (h : Chain Marks fs t t')
    (hfinite : ∀ f ∈ fs, f.time.isFinite) (hsorted : fs.Pairwise fun f f' => f.time ≤ f'.time) :
    fs.Pairwise Apart := by
  induction h with
  | nil => exact .nil
  | @cons f fs t t' t'' hmarks hrest ih =>
    rw [List.forall_mem_cons] at hfinite
    rw [List.pairwise_cons] at hsorted
    have hnoted : t'.get? f.event.name = some f.time := by rw [hmarks.2, Table.get?_put_self]
    have hle : f.time ≤ f.time := Grid.le_refl (Grid.notNaN_of_finite hfinite.1)
    have hlater : ∀ f' ∈ fs, f'.time.isFinite ∧ f.time ≤ f'.time := fun f' hf' =>
      ⟨hfinite.2 f' hf', hsorted.1 f' hf'⟩
    exact .cons (apart_of_marks hrest hnoted hfinite.1 hle hfinite.1 hlater)
      (ih hfinite.2 hsorted.2)

end Firing

namespace Expression

theorem condition_of_all {context : Context} {cs : List Json} (h : all context cs = .ok true) :
    ∀ c ∈ cs, condition context c = .ok true := by
  induction cs with
  | nil => simp
  | cons c rest ih =>
    obtain ⟨holds, hholds, hrest⟩ := ok_of_bind h
    cases holds with
    | false => cases hrest
    | true => exact List.forall_mem_cons.2 ⟨hholds, ih hrest⟩

end Expression

namespace Pulse
variable {d : Definition} {now : Float}

/-- The firing of an event with a sample, if it happens, even if its effects end the tick. -/
def firing (now : Float) (place : Nat) (e : RandomEvent) (x : Number) (p : Pulse) : List Firing :=
  match happens now e x p with
  | .ok true => [⟨place, e, now, x, p⟩]
  | _ => []

def firingsFrom (d : Definition) (now : Float) (place : Nat) :
    List RandomEvent → Pulse → List Firing
  | [], _ => []
  | e :: rest, p =>
    match draw p with
    | .error _ _ => []
    | .ok x p₁ =>
      firing now place e x p₁ ++
        match settle d now e x p₁ with
        | .ok _ p₂ => firingsFrom d now (place + 1) rest p₂
        | .error _ _ => []

def play (p : Pulse) : State × Table Float := (p.state, p.firedAt)

/-- A firing applies its effects to the state, and is noted in the table of times. -/
def Plays (d : Definition) (f : Firing) (q q' : State × Table Float) : Prop :=
  f.Acts d q.1 q'.1 ∧ f.Marks q.2 q'.2

theorem happens_cases {e : RandomEvent} {x : Number} {p : Pulse}
    (h : happens now e x p = .ok true) :
    e.isDrawn x ∧ e.rests now p.firedAt = false ∧
      Expression.all p.state.context (e.conditions.map .text) = .ok true := by
  unfold happens at h
  split_ifs at h with hdue
  · simp only [Bool.and_eq_true, Bool.not_eq_true'] at hdue
    exact ⟨hdue.1, hdue.2, h⟩
  · cases h

theorem firing_plays (place : Nat) (e : RandomEvent) (x : Number) (p : Pulse) :
    Chain (Plays d) (firing now place e x p) p.play ((settle d now e x).outcome p).2.play := by
  unfold firing
  cases h : happens now e x p with
  | error fault =>
    rw [Task.outcome_error (settle_fault h)]
    exact .nil _
  | ok happened =>
    cases happened with
    | false =>
      rw [Task.outcome_ok (settle_not h)]
      exact .nil _
    | true =>
      rw [settle_end h]
      exact .single ⟨⟨rfl, rfl⟩, (happens_cases h).2.1, rfl⟩

theorem firingsFrom_plays (place : Nat) (events : List RandomEvent) (p : Pulse) :
    Chain (Plays d) (firingsFrom d now place events p) p.play
      ((Task.forEach (RandomEvent.run d now) events).outcome p).2.play := by
  induction events generalizing place p with
  | nil => exact .nil _
  | cons e rest ih =>
    -- The draw itself changes nothing of the play; what happens afterwards may.
    have hplay : draw.Moves (Kept play) p := draw_kept (fun _ _ => rfl) p
    rw [firingsFrom]
    cases hdraw : draw p with
    | error fault p₁ =>
      rw [Task.Moves, Task.outcome_error hdraw] at hplay
      have hrun : e.run d now p = .error fault p₁ := Task.bind_error hdraw
      have hend : (Task.forEach (RandomEvent.run d now) (e :: rest)).outcome p =
          (.error fault, p₁) := Task.outcome_error (Task.bind_error hrun)
      rw [hend, show p₁.play = p.play from hplay]
      exact .nil _
    | ok x p₁ =>
      rw [Task.Moves, Task.outcome_ok hdraw] at hplay
      have hrun : e.run d now p = settle d now e x p₁ := Task.bind_ok hdraw
      have hfirst : Chain (Plays d) (firing now place e x p₁) p.play
          ((settle d now e x).outcome p₁).2.play := hplay ▸ firing_plays place e x p₁
      cases hsettle : settle d now e x p₁ with
      | error fault p₂ =>
        rw [Task.outcome_error hsettle] at hfirst
        have hend : (Task.forEach (RandomEvent.run d now) (e :: rest)).outcome p =
            (.error fault, p₂) := Task.outcome_error (Task.bind_error (hrun.trans hsettle))
        rw [hend]
        simpa only [hsettle, List.append_nil] using hfirst
      | ok done p₂ =>
        rw [Task.outcome_ok hsettle] at hfirst
        have hend : (Task.forEach (RandomEvent.run d now) (e :: rest)).outcome p =
            (Task.forEach (RandomEvent.run d now) rest).outcome p₂ :=
          Task.outcome_bind_ok (hrun.trans hsettle)
        rw [hend]
        simpa only [hsettle] using hfirst.append (ih (place + 1) p₂)

theorem firing_tells {place : Nat} {e : RandomEvent} {x : Number} {p : Pulse} {source : Source}
    (hevent : d.randomEvents[place]? = some e) (hgives : Source.Gives x source p.source) :
    ∀ f ∈ firing now place e x p, f.Tells d now ∧ f.before = p := by
  unfold firing
  split
  · rename_i h
    obtain ⟨hdrawn, -, hconditions⟩ := happens_cases h
    rw [RandomEvent.isDrawn, Bool.and_eq_true, Bool.not_eq_true'] at hdrawn
    refine List.forall_mem_singleton.2
      ⟨⟨hevent, rfl, ⟨source, hgives⟩, hdrawn.1, hdrawn.2, fun c hc => ?_⟩, rfl⟩
    exact Expression.condition_of_all hconditions _ (List.mem_map_of_mem hc)
  · simp

theorem firingsFrom_tells (done events : List RandomEvent) (p : Pulse)
    (hevents : d.randomEvents = done ++ events) :
    ∀ f ∈ firingsFrom d now done.length events p,
      f.Tells d now ∧ f.before.source.given? = p.source.given? := by
  induction events generalizing done p with
  | nil => simp [firingsFrom]
  | cons e rest ih =>
    intro f hf
    rw [firingsFrom] at hf
    cases hdraw : draw p with
    | error fault p₁ =>
      rw [hdraw] at hf
      cases hf
    | ok x p₁ =>
      have hgives := gives_of_draw hdraw
      have hgiven : p₁.source.given? = p.source.given? := Source.sample_given hgives
      rw [hdraw, List.mem_append] at hf
      rcases hf with hf | hf
      · have hplace : d.randomEvents[done.length]? = some e := by simp [hevents]
        obtain ⟨htells, hbefore⟩ := firing_tells hplace hgives f hf
        exact ⟨htells, hbefore ▸ hgiven⟩
      · cases hsettle : settle d now e x p₁ with
        | error fault p₂ =>
          rw [hsettle] at hf
          cases hf
        | ok happened p₂ =>
          rw [hsettle] at hf
          -- The events before this one are done, which keeps the places in step with the
          -- definition.
          have hnext := ih (done ++ [e]) p₂ (by simp [hevents])
          rw [List.length_append, List.length_singleton] at hnext
          rw [← hgiven, ← settle_source hsettle]
          exact hnext f hf

end Pulse

namespace Room
variable {d : Definition} {r b : Room}

def firingsOn (b : Room) : List Firing :=
  match Pulse.lead b.definition b.clock b.pulse with
  | .ok _ p =>
    if b.gated && p.state.isShutDown then []
    else Pulse.firingsFrom b.definition b.clock 0 b.definition.randomEvents p
  | .error _ _ => []

/-- The firings of random events while requests are answered. -/
def firingsOver (qs : List Request) (r : Room) : List Firing := (ticksOver qs r).flatMap firingsOn

theorem firingsOn_tells (b : Room) : ∀ f ∈ b.firingsOn,
    f.Tells b.definition b.clock ∧ f.before.source.given? = b.source.given? := by
  have hsource := lead_source b
  unfold firingsOn
  cases hlead : Pulse.lead b.definition b.clock b.pulse with
  | error fault p => simp
  | ok done p =>
    rw [Task.outcome_ok hlead] at hsource
    dsimp only
    split_ifs
    · simp
    · rw [← hsource]
      exact Pulse.firingsFrom_tells [] _ p rfl

theorem tick_plays (b : Room) : Chain (Pulse.Plays b.definition) b.firingsOn
    ((Pulse.lead b.definition b.clock).outcome b.pulse).2.play b.pulsed.play := by
  unfold firingsOn
  cases hlead : Pulse.lead b.definition b.clock b.pulse with
  | error fault p =>
    rw [Task.outcome_error hlead, pulsed_fault hlead]
    exact .nil _
  | ok done p =>
    rw [Task.outcome_ok hlead]
    dsimp only
    split_ifs with hshut
    · rw [pulsed_shut hlead hshut]
      exact .nil _
    · rw [pulsed, outcome_open hlead (Bool.eq_false_iff.2 hshut)]
      exact Pulse.firingsFrom_plays 0 _ p

theorem tick_marks (b : Room) : Chain Firing.Marks b.firingsOn b.firedAt b.tick.firedAt := by
  have hlead : ((Pulse.lead b.definition b.clock).outcome b.pulse).2.firedAt = b.firedAt :=
    Pulse.lead_kept (fun _ _ _ => rfl) b.pulse
  have hend : b.tick.firedAt = b.pulsed.firedAt := (tick_still b).firedAt
  rw [hend, ← hlead]
  exact (tick_plays b).map Prod.snd fun _ _ _ h => h.2

/-! ### Runs -/

/-- A room later on, in a run that keeps its definition and the samples it was given. A clock that
is finite stays so and does not go back. -/
structure Onward (r r' : Room) : Prop where
  definition : r'.definition = r.definition
  source : r'.source.given? = r.source.given?
  clock : r.clock.isFinite → r'.clock.isFinite ∧ r.clock ≤ r'.clock

instance : IsPreorder Room Onward where
  refl _ := ⟨rfl, rfl, fun h => ⟨h, Grid.le_refl (Grid.notNaN_of_finite h)⟩⟩
  trans _ _ _ h h' := ⟨h'.definition.trans h.definition, h'.source.trans h.source, fun hfinite =>
    ⟨(h'.clock (h.clock hfinite).1).1,
      Grid.le_trans (h.clock hfinite).2 (h'.clock (h.clock hfinite).1).2⟩⟩

theorem onward_of_clock {r' : Room} (hdefinition : r'.definition = r.definition)
    (hsource : r'.source.given? = r.source.given?) (hclock : r'.clock = r.clock) : Onward r r' :=
  ⟨hdefinition, hsource, fun h => by
    rw [hclock]
    exact ⟨h, Grid.le_refl (Grid.notNaN_of_finite h)⟩⟩

theorem tick_onward (b : Room) : Onward b b.tick :=
  onward_of_clock (tick_still b).definition (tick_played b).source (tick_still b).clock

/-- Between the ticks of a run nothing happens at random. -/
structure Uneventful (r r' : Room) : Prop extends Onward r r' where
  firedAt : r'.firedAt = r.firedAt

theorem Calm.uneventful {r r' : Room} (h : Calm r r') : Uneventful r r' :=
  ⟨onward_of_clock h.definition (congrArg _ h.source) h.clock, h.firedAt⟩

theorem uneventful_of_reaches {q : Request} (hreaches : q.reaches) (hforgets : q.forgets = false)
    (hfinite : ((perform q).outcome r).2.clock.isFinite)
    (hle : r.clock ≤ ((perform q).outcome r).2.clock) :
    Uneventful r ((perform q).outcome r).2 := by
  obtain ⟨clock, state, source, recent, hgiven, h⟩ := reaches_leaves hreaches hforgets r
  rw [h] at hfinite hle ⊢
  exact ⟨⟨rfl, hgiven, fun _ => ⟨hfinite, hle⟩⟩, rfl⟩

theorem run_uneventful {qs : List Request} (hqs : ∀ q ∈ qs, q.forgets = false)
    (hsteady : Steady qs r) : Beats Uneventful (ticksOver qs r) r (run qs r).2 := by
  induction qs generalizing r with
  | nil => exact .refl r
  | cons q qs ih =>
    obtain ⟨-, hle, hrest⟩ := hsteady
    rw [List.forall_mem_cons] at hqs
    exact (perform_beats (fun _ _ h => h.uneventful) fun hreaches =>
      uneventful_of_reaches hreaches hqs.1 hrest.finite hle).append (ih hqs.2 hrest)

theorem ticks_onward {qs : List Request} (hqs : ∀ q ∈ qs, q.forgets = false)
    (hsteady : Steady qs r) :
    (∀ b ∈ ticksOver qs r, Onward r b) ∧ (ticksOver qs r).Pairwise Onward :=
  (run_uneventful hqs hsteady).ordered (fun _ _ h => h.toOnward) tick_onward

theorem firings_apart {qs : List Request} (hqs : ∀ q ∈ qs, q.forgets = false)
    (hsteady : Steady qs r) : (firingsOver qs r).Pairwise Firing.Apart := by
  obtain ⟨hbeats, hsorted⟩ := ticks_onward hqs hsteady
  have htime : ∀ b, ∀ f ∈ firingsOn b, f.time = b.clock := fun b f hf =>
    (firingsOn_tells b f hf).1.time
  have hmarks : Chain Firing.Marks (firingsOver qs r) r.firedAt (run qs r).2.firedAt :=
    (run_uneventful hqs hsteady).chain firedAt (fun _ _ h => h.firedAt) fun b _ => tick_marks b
  have hfinite : ∀ b ∈ ticksOver qs r, b.clock.isFinite := fun b hb =>
    ((hbeats b hb).clock hsteady.finite).1
  refine Firing.pairwise_apart hmarks (fun f hf => ?_)
    (List.pairwise_flatMap.2 ⟨fun b hb => ?_, ?_⟩)
  · obtain ⟨b, hb, hf⟩ := List.mem_flatMap.1 hf
    rw [htime b f hf]
    exact hfinite b hb
  · -- All firings of a tick happen at one time.
    refine List.pairwise_of_forall_mem_list fun f hf f' hf' => ?_
    rw [htime b f hf, htime b f' hf']
    exact Grid.le_refl (Grid.notNaN_of_finite (hfinite b hb))
  · refine hsorted.imp_of_mem fun {b b'} hb _ honward f hf f' hf' => ?_
    rw [htime b f hf, htime b' f' hf']
    exact (honward.clock (hfinite b hb)).2

/-- What the random events of a tick keep to. -/
structure Orderly (d : Definition) (b : Room) : Prop where
  tells : ∀ f ∈ b.firingsOn, f.Tells d b.clock
  /-- The first event to happen finds the state that the rules left, and each other one what the
  effects of those before it left. -/
  acts : Chain (Firing.Acts d) b.firingsOn ((Pulse.lead d b.clock).outcome b.pulse).2.state
    b.pulsed.state
  /-- What happens is noted, and nothing else is. -/
  marks : Chain Firing.Marks b.firingsOn b.firedAt b.tick.firedAt
  /-- Behind a gate that is shut no event happens, and nothing else does. -/
  shut : ∀ p, Pulse.lead d b.clock b.pulse = .ok () p → (b.gated && p.state.isShutDown) →
    b.firingsOn = [] ∧ b.pulsed = p

theorem tick_orderly (b : Room) : Orderly b.definition b where
  tells f hf := (firingsOn_tells b f hf).1
  acts := (tick_plays b).map Prod.fst fun _ _ _ h => h.1
  marks := tick_marks b
  shut p hlead hshut := by
    refine ⟨?_, pulsed_shut hlead hshut⟩
    unfold firingsOn
    rw [hlead]
    exact if_pos hshut

/-- Over every run in which nothing is forgotten and whose clock stays finite and never goes back,
random events happen no sooner than their cooldowns allow, only behind an open gate, with a sample
that is at most their probability, and where all their conditions hold. -/
theorem firings_safe {qs : List Request} (hqs : ∀ q ∈ qs, q.forgets = false)
    (hsteady : Steady qs r) :
    (firingsOver qs r).Pairwise Firing.Apart ∧
      (∀ b ∈ ticksOver qs r, Orderly r.definition b) ∧
      (r.source.Numbers → ∀ f ∈ firingsOver qs r, f.sample.le f.event.probability) := by
  obtain ⟨honward, -⟩ := ticks_onward hqs hsteady
  refine ⟨firings_apart hqs hsteady, fun b hb => ?_, fun hsource f hf => ?_⟩
  · rw [← (honward b hb).definition]
    exact tick_orderly b
  · obtain ⟨b, hb, hf⟩ := List.mem_flatMap.1 hf
    obtain ⟨htells, hgiven⟩ := firingsOn_tells b f hf
    exact htells.sample_le (.of_given (hgiven.trans (honward b hb).source) hsource)

def rainy : List Request :=
  [.forceTick, .setClock (.int 500), .forceTick, .stop, .setClock (.int 1000), .forceTick,
    .forceTick]

theorem firings_safe_weather :
    ∃ d r, d.Parsed ∧ create d .sampled = .ok r ∧
      (firingsOver rainy r).map (fun f => (f.place, f.time)) = [(0, 0), (0, 1000)] ∧
      (firingsOver rainy r).Pairwise Firing.Apart ∧
      ∀ f ∈ firingsOver rainy r, f.sample.le f.event.probability := by
  obtain ⟨d, hd⟩ : ∃ d, Definition.ofFields weather = .ok d := ⟨_, rfl⟩
  obtain ⟨r, hr⟩ : ∃ r, create d .sampled = .ok r := by
    cases hd
    exact ⟨_, rfl⟩
  have hsteady : Steady rainy r := by
    cases hd
    cases hr
    decide +kernel
  have hsource : r.source.Numbers := by
    cases hd
    cases hr
    rintro samples ⟨⟩
    decide
  obtain ⟨hapart, -, hwithin⟩ := firings_safe (by decide) hsteady
  refine ⟨d, r, ⟨weather, hd⟩, hr, ?_, hapart, hwithin hsource⟩
  cases hd
  cases hr
  decide +kernel

end Room
end Gameroom
