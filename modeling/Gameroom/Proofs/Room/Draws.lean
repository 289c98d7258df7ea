import Gameroom.Proofs.Loop.Phases
import Gameroom.Proofs.Room.Beats

/-!
The samples of random events do not depend on play: a tick whose gate is open draws one for each
event in turn, and nothing else draws any.
-/

namespace Gameroom

/-- A source gives a sample, and what is left of it. -/
def Source.Gives (x : Number) (s s' : Source) : Prop := s.sample = .ok (x, s')

theorem Source.gives_unique {xs ys : List Number} {s s₁ s₂ : Source} (h : Chain Gives xs s s₁)
    (h' : Chain Gives ys s s₂) (hlength : xs.length = ys.length) : xs = ys ∧ s₁ = s₂ := by
  induction h generalizing ys with
  | nil =>
    obtain rfl := List.length_eq_zero_iff.1 hlength.symm
    cases h'
    exact ⟨rfl, rfl⟩
  | @cons x xs s s' s₁ hx _ ih =>
    cases h' with
    | nil => cases hlength
    | @cons y ys s s'' s₂ hy hrest =>
      obtain ⟨rfl, rfl⟩ := Prod.mk.inj (Except.ok.inj (hx.symm.trans hy))
      obtain ⟨rfl, hend⟩ := ih hrest (Nat.succ.inj hlength)
      exact ⟨rfl, hend⟩

namespace Pulse
variable {d : Definition} {now : Float} {events : List RandomEvent} {xs : List Number}
  {p p' : Pulse}

/-- Each event in turn draws a sample, and is decided by it. -/
inductive Decided (d : Definition) (now : Float) :
    List RandomEvent → List Number → Pulse → Pulse → Prop
  | nil (p : Pulse) : Decided d now [] [] p p
  | cons {e : RandomEvent} {events : List RandomEvent} {x : Number} {xs : List Number}
      {p p₁ p₂ p' : Pulse} (hdraw : draw p = .ok x p₁) (hsettle : settle d now e x p₁ = .ok () p₂)
      (rest : Decided d now events xs p₂ p') : Decided d now (e :: events) (x :: xs) p p'

def samples (d : Definition) (now : Float) : List RandomEvent → Pulse → List Number
  | [], _ => []
  | e :: rest, p =>
    match draw p with
    | .error _ _ => []
    | .ok x p₁ =>
      x :: match settle d now e x p₁ with
        | .ok _ p₂ => samples d now rest p₂
        | .error _ _ => []

theorem decided_of_run (h : Task.forEach (RandomEvent.run d now) events p = .ok () p') :
    Decided d now events (samples d now events p) p p' := by
  induction events generalizing p with
  | nil =>
    cases h
    exact .nil _
  | cons e rest ih =>
    obtain ⟨⟨⟩, p₂, hrun, hrest⟩ := Task.ok_of_bind h
    rw [runEvent_eq] at hrun
    obtain ⟨x, p₁, hdraw, hsettle⟩ := Task.ok_of_bind hrun
    simp only [samples, hdraw, hsettle]
    exact .cons hdraw hsettle (ih hrest)

theorem Decided.length_eq (h : Decided d now events xs p p') : xs.length = events.length := by
  induction h with
  | nil => rfl
  | cons _ _ _ ih => rw [List.length_cons, List.length_cons, ih]

theorem gives_of_draw {x : Number} (h : draw p = .ok x p') : Source.Gives x p.source p'.source := by
  obtain ⟨s, hs, rfl⟩ := Task.ok_of_on h
  unfold Source.draw Task.step at hs
  cases hsample : p.source.sample with
  | error fault =>
    rw [hsample] at hs
    cases hs
  | ok next =>
    rw [hsample] at hs
    cases hs
    exact hsample

theorem settle_source {e : RandomEvent} {x : Number} (h : settle d now e x p = .ok () p') :
    p'.source = p.source := by
  have hkept : (settle d now e x).Moves (Kept source) p := settle_kept (fun _ _ _ => rfl) e x p
  rwa [Task.Moves, Task.outcome_ok h] at hkept

theorem Decided.gives (h : Decided d now events xs p p') :
    Chain Source.Gives xs p.source p'.source := by
  induction h with
  | nil p => exact .nil p.source
  | cons hdraw hsettle _ ih =>
    rw [settle_source hsettle] at ih
    exact .cons (gives_of_draw hdraw) ih

end Pulse

namespace Room
variable {r b : Room}

/-- Whether a tick comes to random events with its gate open. -/
def isOpen (b : Room) : Bool :=
  match Pulse.lead b.definition b.clock b.pulse with
  | .ok _ p => !(b.gated && p.state.isShutDown)
  | .error _ _ => false

/-- Whether the work of a tick comes to its end. -/
def completes (b : Room) : Bool :=
  ((Pulse.run b.definition b.clock b.gated).outcome b.pulse).1.isOk

/-- The samples that random events draw on a tick. -/
def samplesOn (b : Room) : List Number :=
  match Pulse.lead b.definition b.clock b.pulse with
  | .ok _ p => Pulse.samples b.definition b.clock b.definition.randomEvents p
  | .error _ _ => []

/-- The random events of a tick are decided by its samples in turn. -/
def DecidedBy (b : Room) (xs : List Number) : Prop :=
  ∃ p, Pulse.lead b.definition b.clock b.pulse = .ok () p ∧
    Pulse.Decided b.definition b.clock b.definition.randomEvents xs p b.pulsed

theorem lead_source (b : Room) :
    ((Pulse.lead b.definition b.clock).outcome b.pulse).2.source = b.source :=
  Pulse.lead_kept (fun _ _ _ => rfl) b.pulse

theorem pulsed_fault {fault : Fault} {p : Pulse}
    (h : Pulse.lead b.definition b.clock b.pulse = .error fault p) : b.pulsed = p := by
  rw [pulsed, Pulse.run_eq, Task.outcome_error (Task.bind_error h)]

theorem pulsed_shut {p : Pulse} (h : Pulse.lead b.definition b.clock b.pulse = .ok () p)
    (hshut : (b.gated && p.state.isShutDown) = true) : b.pulsed = p := by
  rw [pulsed, Pulse.run_eq, Task.outcome_bind_ok h, Task.outcome_ok (Pulse.runEvents_shut hshut)]

theorem outcome_open {p : Pulse} (h : Pulse.lead b.definition b.clock b.pulse = .ok () p)
    (hopen : (b.gated && p.state.isShutDown) = false) :
    (Pulse.run b.definition b.clock b.gated).outcome b.pulse =
      (Task.forEach (RandomEvent.run b.definition b.clock)
        b.definition.randomEvents).outcome p := by
  rw [Pulse.run_eq, Task.outcome_bind_ok h]
  unfold Task.outcome
  rw [Pulse.runEvents_open hopen]

theorem decidedBy_samplesOn (hopen : b.isOpen) (hdone : b.completes) : b.DecidedBy b.samplesOn := by
  unfold isOpen at hopen
  unfold completes at hdone
  unfold DecidedBy samplesOn pulsed
  cases hlead : Pulse.lead b.definition b.clock b.pulse with
  | error fault p =>
    rw [hlead] at hopen
    cases hopen
  | ok done p =>
    rw [hlead] at hopen
    rw [outcome_open hlead (by simpa only [Bool.not_eq_true'] using hopen)] at hdone ⊢
    refine ⟨p, rfl, ?_⟩
    cases hrun : Task.forEach (RandomEvent.run b.definition b.clock)
        b.definition.randomEvents p with
    | error fault p' =>
      rw [Task.outcome_error hrun] at hdone
      cases hdone
    | ok done p' =>
      rw [Task.outcome_ok hrun]
      exact Pulse.decided_of_run hrun

theorem DecidedBy.length_eq {xs : List Number} (h : b.DecidedBy xs) :
    xs.length = b.definition.randomEvents.length := by
  obtain ⟨p, -, hdecided⟩ := h
  exact hdecided.length_eq

theorem DecidedBy.gives {xs : List Number} (h : b.DecidedBy xs) :
    Chain Source.Gives xs b.source b.tick.source := by
  obtain ⟨p, hlead, hdecided⟩ := h
  have hsource := lead_source b
  rw [Task.outcome_ok hlead] at hsource
  rw [(tick_still b).source, ← hsource]
  exact hdecided.gives

theorem tick_source (hclosed : b.isOpen = false) : b.tick.source = b.source := by
  have hsource := lead_source b
  have hpulsed : b.tick.source = b.pulsed.source := (tick_still b).source
  unfold isOpen at hclosed
  cases hlead : Pulse.lead b.definition b.clock b.pulse with
  | error fault p =>
    rw [Task.outcome_error hlead] at hsource
    rw [hpulsed, pulsed_fault hlead, hsource]
  | ok done p =>
    rw [Task.outcome_ok hlead] at hsource
    rw [hlead] at hclosed
    rw [hpulsed, pulsed_shut hlead (by simpa only [Bool.not_eq_false'] using hclosed), hsource]

/-! ### Runs -/

/-- The rooms at which ticks with an open gate begin. -/
def openOver (qs : List Request) (r : Room) : List Room := (ticksOver qs r).filter isOpen

theorem source_of_reaches {q : Request} (hreaches : q.reaches) (hrestarts : q.restarts = false)
    (r : Room) : ((perform q).outcome r).2.source = r.source ∧
      ((perform q).outcome r).2.definition = r.definition ∧
      r.state.tick ≤ ((perform q).outcome r).2.state.tick := by
  by_cases hclock : q.setsClock
  · obtain ⟨clock, h⟩ := perform_clock q r hclock
    rw [h]
    exact ⟨rfl, rfl, le_rfl⟩
  · cases q with
    | destroy =>
      have h := (stop_still r).toCalm
      exact ⟨h.source, h.definition, h.tick⟩
    | close =>
      have h := (stop_still { r with closed := true }).toCalm
      exact ⟨h.source, h.definition, h.tick⟩
    | resetTracking => exact ⟨rfl, rfl, le_rfl⟩
    | advanceClock | setClock => exact absurd rfl hclock
    | renew | reset => cases hrestarts
    | _ => cases hreaches

/-- Between the ticks of a run without a new start. -/
structure Undrawn (r r' : Room) : Prop where
  source : r'.source = r.source
  definition : r'.definition = r.definition
  tick : r.state.tick ≤ r'.state.tick

instance : IsPreorder Room Undrawn where
  refl _ := ⟨rfl, rfl, le_rfl⟩
  trans _ _ _ h h' := ⟨h'.source.trans h.source, h'.definition.trans h.definition,
    h.tick.trans h'.tick⟩

theorem Calm.undrawn {r r' : Room} (h : Calm r r') : Undrawn r r' :=
  ⟨h.source, h.definition, h.tick⟩

theorem perform_undrawn {q : Request} (hrestarts : q.restarts = false) (r : Room) :
    Beats Undrawn (ticksOn q r) r ((perform q).outcome r).2 :=
  perform_beats (fun _ _ h => h.undrawn) fun hreaches =>
    have h := source_of_reaches hreaches hrestarts r
    ⟨h.1, h.2.1, h.2.2⟩

theorem run_undrawn {qs : List Request} (hqs : ∀ q ∈ qs, q.restarts = false) (r : Room) :
    Beats Undrawn (ticksOver qs r) r (run qs r).2 :=
  run_beats (fun _ _ h => h.undrawn) (fun q hq hreaches r =>
    have h := source_of_reaches hreaches (hqs q hq) r
    ⟨h.1, h.2.1, h.2.2⟩) r

theorem ticks_definition {qs : List Request} (hqs : ∀ q ∈ qs, q.restarts = false) :
    ∀ b ∈ ticksOver qs r, b.definition = r.definition :=
  ((run_undrawn hqs r).keeps (P := fun b => b.definition = r.definition)
    (fun _ _ h hb => h.definition.trans hb) (fun b hb => (tick_still b).definition.trans hb) rfl).1

/-- The ticks of a run with an open gate draw from the source in turn. -/
def Serves (n : Nat) (b : Room) (s s' : Source) : Prop :=
  b.samplesOn.length = n ∧ Chain Source.Gives b.samplesOn s s'

theorem filter_eq_flatMap {α : Type} (keep : α → Bool) (l : List α) :
    l.filter keep = l.flatMap fun a => [a].filter keep := by
  induction l with
  | nil => rfl
  | cons a l ih => rw [List.flatMap_cons, ← ih, ← List.filter_append, List.singleton_append]

theorem open_serves {qs : List Request} (hqs : ∀ q ∈ qs, q.restarts = false)
    (hdone : ∀ b ∈ ticksOver qs r, b.completes) :
    Chain (Serves r.definition.randomEvents.length) (openOver qs r) r.source
      (run qs r).2.source := by
  rw [openOver, filter_eq_flatMap]
  refine (run_undrawn hqs r).chain source (fun _ _ h => h.source) fun b hb => ?_
  cases hopen : b.isOpen with
  | false =>
    rw [List.filter_cons_of_neg (by simp [hopen]), tick_source hopen]
    exact .nil _
  | true =>
    rw [List.filter_cons_of_pos hopen]
    have hdecided := decidedBy_samplesOn hopen (hdone b hb)
    have hlength := hdecided.length_eq
    rw [ticks_definition hqs b hb] at hlength
    exact .single ⟨hlength, hdecided.gives⟩

theorem samples_of_serves {n : Nat} {bs bs' : List Room} {s s₁ s₂ : Source}
    (h : Chain (Serves n) bs s s₁) (h' : Chain (Serves n) bs' s s₂)
    (hlength : bs.length = bs'.length) : bs.map samplesOn = bs'.map samplesOn := by
  induction h generalizing bs' with
  | nil =>
    obtain rfl := List.length_eq_zero_iff.1 hlength.symm
    rfl
  | @cons b bs s s' s₁ hb _ ih =>
    cases h' with
    | nil => cases hlength
    | @cons b' bs' s s'' s₂ hb' hrest =>
      obtain ⟨hsamples, rfl⟩ := Source.gives_unique hb.2 hb'.2 (hb.1.trans hb'.1.symm)
      rw [List.map_cons, List.map_cons, hsamples, ih hrest (Nat.succ.inj hlength)]

theorem openOver_numbers {qs : List Request} (hqs : ∀ q ∈ qs, q.restarts = false) (r : Room) :
    ((openOver qs r).map (·.state.tick)).Pairwise (· < ·) :=
  List.pairwise_map.2 (((run_undrawn hqs r).numbers fun _ _ h => h.tick).filter _)

/-- Random events draw their samples apart from play. A tick draws one sample for each event if its
gate is open, and none else; whoever asks for no tick draws none. So the same event on the same tick
is decided by the same sample in all runs from one source whose gates are open on the same ticks. -/
theorem draws_apart_from_play {qs : List Request} (hqs : ∀ q ∈ qs, q.restarts = false)
    (hdone : ∀ b ∈ ticksOver qs r, b.completes) :
    (∀ b ∈ ticksOver qs r, b.isOpen →
      b.DecidedBy b.samplesOn ∧ b.samplesOn.length = r.definition.randomEvents.length ∧
        Chain Source.Gives b.samplesOn b.source b.tick.source) ∧
      (∀ b ∈ ticksOver qs r, b.isOpen = false → b.tick.source = b.source) ∧
      (∀ (q : Request) (r : Room), q.restarts = false → ticksOn q r = [] →
        ((perform q).outcome r).2.source = r.source) ∧
      ∀ {qs' : List Request} {r' : Room}, (∀ q ∈ qs', q.restarts = false) →
        (∀ b ∈ ticksOver qs' r', b.completes) → r'.definition = r.definition →
        r'.source = r.source →
        (∀ n, n ∈ (openOver qs r).map (·.state.tick) ↔ n ∈ (openOver qs' r').map (·.state.tick)) →
        ∀ b ∈ openOver qs r, ∀ b' ∈ openOver qs' r', b.state.tick = b'.state.tick →
          b.samplesOn = b'.samplesOn := by
  refine ⟨fun b hb hopen => ?_, fun b _ => tick_source, fun q r hq hnone => ?_, ?_⟩
  · have hdecided := decidedBy_samplesOn hopen (hdone b hb)
    have hlength := hdecided.length_eq
    rw [ticks_definition hqs b hb] at hlength
    exact ⟨hdecided, hlength, hdecided.gives⟩
  · have hbeats := perform_undrawn hq r
    rw [hnone] at hbeats
    exact hbeats.of_nil.source
  · intro qs' r' hqs' hdone' hdefinition hsource hsame b hb b' hb' htick
    have hsorted := openOver_numbers hqs r
    have hsorted' := openOver_numbers hqs' r'
    -- Ticks never go back, so runs with the same open ticks pass through them in the same order.
    have hnumbers : (openOver qs r).map (·.state.tick) = (openOver qs' r').map (·.state.tick) :=
      List.Perm.eq_of_pairwise' hsorted hsorted'
        ((List.perm_ext_iff_of_nodup hsorted.nodup hsorted'.nodup).2 hsame)
    have hserves' := open_serves hqs' hdone'
    rw [hdefinition, hsource] at hserves'
    have hsamples := samples_of_serves (open_serves hqs hdone) hserves'
      (by simpa using congrArg List.length hnumbers)
    have hpairs := congrArg₂ List.zip hnumbers hsamples
    rw [List.zip_map', List.zip_map'] at hpairs
    obtain ⟨b'', hb'', hpair⟩ := List.mem_map.1 (hpairs ▸ List.mem_map_of_mem hb)
    obtain ⟨hnumber, hdrawn⟩ := Prod.mk.inj hpair
    obtain rfl := List.inj_on_of_nodup_map hsorted'.nodup hb'' hb' (hnumber.trans htick)
    exact hdrawn.symm

/-- A game with two random events. The second one has a condition that the first one may break. -/
def weather : Table Json :=
  [("meta", .object []),
    ("vars", .object [("level", .object [("value", .int 0), ("min", .int 0), ("max", .int 10)])]),
    ("random_events", .list [
      .object [("name", .text "rain"), ("probability", .float 0.5), ("cooldown", .int 1000),
        ("effects", .list [.object [("type", .text "set_var"), ("target", .text "level"),
          ("value", .int 3)]])],
      .object [("name", .text "wind"), ("probability", .float 0.5),
        ("conditions", .list [.text "level > 5"]), ("effects", .list [])]])]

def Options.sampled : Options :=
  { still with source := some (.cycle [.float 0.25, .float 0.75, .float 0.5] 0) }

def played : List Request :=
  [.addPlayer (.object []), .setVariable (.text "level") (.int 7), .forceTick,
    .act (.text "wave") (.text (playerId 1)) .null, .setVariable (.text "level") (.int 8),
    .forceTick]

theorem draws_apart_from_play_weather :
    ∃ d r, d.Parsed ∧ create d .sampled = .ok r ∧
      (openOver [.forceTick, .forceTick] r).map samplesOn =
        [[.float 0.25, .float 0.75], [.float 0.5, .float 0.25]] ∧
      ∀ b ∈ openOver [.forceTick, .forceTick] r, ∀ b' ∈ openOver played r,
        b.state.tick = b'.state.tick → b.samplesOn = b'.samplesOn := by
  obtain ⟨d, hd⟩ : ∃ d, Definition.ofFields weather = .ok d := ⟨_, rfl⟩
  obtain ⟨r, hr⟩ : ∃ r, create d .sampled = .ok r := by
    cases hd
    exact ⟨_, rfl⟩
  have hquiet : ∀ b ∈ ticksOver [.forceTick, .forceTick] r, b.completes := by
    cases hd
    cases hr
    decide +kernel
  have hplayed : ∀ b ∈ ticksOver played r, b.completes := by
    cases hd
    cases hr
    decide +kernel
  have hsame : (openOver [.forceTick, .forceTick] r).map (·.state.tick) =
      (openOver played r).map (·.state.tick) := by
    cases hd
    cases hr
    decide +kernel
  obtain ⟨-, -, -, halike⟩ := draws_apart_from_play (by decide) hquiet
  refine ⟨d, r, ⟨weather, hd⟩, hr, ?_, halike (by decide) hplayed rfl rfl fun n => by rw [hsame]⟩
  cases hd
  cases hr
  decide +kernel

end Room
end Gameroom
