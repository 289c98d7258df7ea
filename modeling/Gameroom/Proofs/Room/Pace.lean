import Gameroom.Proofs.Loop.Elapsed
import Gameroom.Proofs.Room.Beats
import Gameroom.Proofs.Room.Halting

/-!
A loop that keeps running ticks as often as the time that has passed is enough for, however frames
cut that time.
-/

namespace Gameroom.Room

/-! ### Ticks and frames of a loop that keeps running -/

/-- A loop that runs, with the length of its ticks, the bound of its frames, the time that is not
spent and the reading at the last frame in whole milliseconds. -/
structure Paces (step bound unspent last : Int) (l : Loop) : Prop where
  running : l.running
  timestep : IsWhole l.timestep step
  maxFrame : l.maxFrame.Means bound
  accumulator : IsWhole l.accumulator unspent
  lastTime : IsWhole l.lastTime last

variable {step bound unspent last : Int} {l l' : Loop} {r r' : Room}

theorem Paces.of_pace (h : Paces step bound unspent last l) (hrun : l'.running)
    (hpace : l'.pace = l.pace) : Paces step bound unspent last l' := by
  obtain ⟨htimestep, hframe, haccumulator, hlast⟩ : l'.timestep = l.timestep ∧
      l'.maxFrame = l.maxFrame ∧ l'.accumulator = l.accumulator ∧ l'.lastTime = l.lastTime := by
    simpa [Loop.pace] using hpace
  exact ⟨hrun, htimestep ▸ h.timestep, hframe ▸ h.maxFrame, haccumulator ▸ h.accumulator,
    hlast ▸ h.lastTime⟩

theorem spendOne_loop (hrun : r.spendOne.loop.running) :
    r.loop.running ∧ r.tick.loop.pace = r.loop.pace := (tick_still r).loop hrun

theorem running_of_spend (fuel count : Nat) (r : Room)
    (hrun : (spend fuel count r).2.loop.running) : r.loop.running := by
  induction fuel generalizing count r with
  | zero => exact hrun
  | succ fuel ih =>
    rw [spend_succ] at hrun
    split_ifs at hrun with hdue
    · exact hdue.2
    · exact hrun

theorem spendOne_paces (h : Paces step bound unspent last r.loop) (hrun : r.spendOne.loop.running)
    (hpos : 0 ≤ step) (hdue : step ≤ unspent) (hhigh : unspent ≤ 2 ^ 53) :
    Paces step bound (unspent - step) last r.spendOne.loop := by
  have htick : Paces step bound unspent last r.tick.loop := h.of_pace hrun (spendOne_loop hrun).2
  exact ⟨hrun, htick.timestep, htick.maxFrame,
    htick.accumulator.sub htick.timestep (by omega), htick.lastTime⟩

theorem spend_paces (fuel count : Nat) (h : Paces step bound unspent last r.loop) (hpos : 1 ≤ step)
    (hlow : 0 ≤ unspent) (hhigh : unspent ≤ 2 ^ 53) (hfuel : (unspent / step).toNat ≤ fuel)
    (hrun : (spend fuel count r).2.loop.running) :
    (spend fuel count r).1 = count + (unspent / step).toNat ∧
      Paces step bound (unspent % step) last (spend fuel count r).2.loop := by
  -- Each tick takes its length from what is not spent, and one from the quotient.
  induction fuel generalizing count r unspent with
  | zero =>
    have hless : unspent < step := by
      by_contra hmore
      have hone : 1 ≤ unspent / step := (Int.le_ediv_iff_mul_le (by omega)).2 (by omega)
      omega
    rw [Int.ediv_eq_zero_of_lt hlow hless, Int.emod_eq_of_lt hlow hless]
    exact ⟨rfl, h⟩
  | succ fuel ih =>
    have hdue := h.timestep.le_iff h.accumulator
    rw [spend_succ] at hrun ⊢
    rcases lt_or_ge unspent step with hless | hmore
    · rw [if_neg fun hboth => (not_le.2 hless) (hdue.1 hboth.1), Int.ediv_eq_zero_of_lt hlow hless,
        Int.emod_eq_of_lt hlow hless]
      exact ⟨rfl, h⟩
    · rw [if_pos ⟨hdue.2 hmore, h.running⟩] at hrun ⊢
      have hone := spendOne_paces h (running_of_spend fuel _ _ hrun) (by omega) hmore hhigh
      have hquotient : (unspent - step) / step = unspent / step - 1 := by
        rw [Int.sub_ediv_of_dvd _ (dvd_refl step), Int.ediv_self (by omega)]
      have hpart : 1 ≤ unspent / step := (Int.le_ediv_iff_mul_le (by omega)).2 (by omega)
      obtain ⟨hcount, hpaces⟩ := ih (count + 1) hone (by omega) (by omega) (by omega) hrun
      rw [hquotient] at hcount
      rw [Int.sub_emod_right] at hpaces
      exact ⟨by omega, hpaces⟩

theorem frame_paces {t : Int} (h : Paces step bound unspent last r.loop)
    (hhost : IsWhole r.loop.host t) (hpos : 1 ≤ step) (hstep : step ≤ 100) (hbound : 0 ≤ bound)
    (hframe : bound ≤ 2 ^ 52) (hlow : 0 ≤ unspent) (hless : unspent < step)
    (hlast : last.natAbs ≤ 2 ^ 52) (ht : t.natAbs ≤ 2 ^ 52)
    (hrun : (frame.outcome r).2.loop.running) :
    (frame.outcome r).1 = .ok r.frameTicks ∧
      (r.frameTicks : Int) = (unspent + Loop.counted bound last t) / step ∧
      Paces step bound ((unspent + Loop.counted bound last t) % step) t
        (frame.outcome r).2.loop := by
  have hcounted := Loop.counted_nonneg bound last t
  have hcapped := Loop.counted_le (u := last) (t := t) hbound
  obtain ⟨x, hx, hwhole⟩ :=
    Loop.elapsed_whole hhost h.lastTime h.maxFrame ht hlast hbound hframe
  -- After the passed time is added the loop holds a whole number of milliseconds.
  have hbegun : Paces step bound (unspent + Loop.counted bound last t) t (r.afterTime x).loop :=
    ⟨h.running, h.timestep, h.maxFrame, h.accumulator.add hwhole (by omega), hhost⟩
  have houtcome := Task.outcome_ok (frame_begun h.running hx)
  rw [houtcome] at hrun
  obtain ⟨hcount, hpaces⟩ := spend_paces _ 0 hbegun hpos (by omega) (by omega)
    (Loop.le_ticksWithin hbegun.accumulator hbegun.timestep hpos (by omega) (by omega)) hrun
  have hticks : r.frameTicks = (spend (r.afterTime x).loop.ticksWithin 0 (r.afterTime x)).1 := by
    rw [frameTicks, houtcome]
  refine ⟨by rw [hticks, houtcome], ?_, by rwa [houtcome]⟩
  have hquotient : 0 ≤ (unspent + Loop.counted bound last t) / step :=
    Int.ediv_nonneg (by omega) (by omega)
  rw [hticks, hcount]
  omega

/-! ### Frames of requests -/

/-- The rooms at which the frame of a request begins, if it has one. -/
def framesOn (q : Request) (r : Room) : List Room :=
  match q with
  | .frame => [r]
  | .advanceHost ms =>
    match Json.addedTo r.loop.host ms with
    | .error _ => []
    | .ok host =>
      if r.threaded && r.loop.running then [{ r with loop := { r.loop with host } }] else []
  | _ => []

/-- The rooms at which the frames of requests begin. -/
def framesOver : List Request → Room → List Room
  | [], _ => []
  | q :: qs, r => framesOn q r ++ framesOver qs ((perform q).outcome r).2

/-- The ticks that the frames of requests return. -/
def frameTicksOver (qs : List Request) (r : Room) : Nat := ((framesOver qs r).map frameTicks).sum

/-- Whether a request counts a tick other than on a frame. -/
def Request.forces : Request → Bool
  | .forceTick | .forceTicks _ | .incrementTick => true
  | _ => false

/-- The loop keeps running with ticks of the same length, and none is counted but on frames. -/
def Unbroken (step : Int) : List Request → Room → Prop
  | [], _ => True
  | q :: qs, r =>
    q.forces = false ∧ ((perform q).outcome r).2.loop.running ∧
      IsWhole ((perform q).outcome r).2.loop.timestep step ∧
      Unbroken step qs ((perform q).outcome r).2

theorem reset_loop (r : Room) : ((perform .reset).outcome r).2.loop = r.stop.loop := by
  have hend : ((perform .reset).outcome r).2 = (reset.outcome r).2 :=
    outcome_bind_pure reset (fun _ => Answer.null) r
  rw [hend]
  cases hs : State.initial r.stop.definition r.stop.clock r.stop.source with
  | error fault source => rw [Task.outcome_error (reset_error (renew_error hs))]
  | ok s source =>
    rw [Task.outcome_ok (reset_ok (renew_ok hs))]
    rfl

theorem perform_advanceHost {ms : Json} (hframe : framesOn (.advanceHost ms) r = []) :
    ∃ host,
      ((perform (.advanceHost ms)).outcome r).2 = { r with loop := { r.loop with host } } := by
  rw [perform, outcome_bind_pure]
  unfold framesOn at hframe
  cases hhost : Json.addedTo r.loop.host ms with
  | error fault =>
    rw [advanceHost_error hhost]
    exact ⟨r.loop.host, rfl⟩
  | ok host =>
    simp only [hhost] at hframe
    split_ifs at hframe with hthread
    rw [advanceHost_ok hhost, if_neg hthread]
    exact ⟨host, rfl⟩

theorem perform_loop {q : Request} (hframe : framesOn q r = []) (hforces : q.forces = false)
    (hbefore : r.loop.running) (hrun : ((perform q).outcome r).2.loop.running) :
    let l := ((perform q).outcome r).2.loop
    l.maxFrame = r.loop.maxFrame ∧ l.accumulator = r.loop.accumulator ∧
      l.lastTime = r.loop.lastTime := by
  by_cases hstill : q.isStill
  · have hpace := ((perform_still hstill r).loop hrun).2
    simp only [Loop.pace, Prod.mk.injEq] at hpace
    exact hpace.2
  by_cases hclock : q.setsClock
  · obtain ⟨clock, h⟩ := perform_clock q r hclock
    rw [h]
    exact ⟨rfl, rfl, rfl⟩
  cases q with
  | frame => cases hframe
  | advanceHost ms =>
    obtain ⟨host, hend⟩ := perform_advanceHost hframe
    rw [hend]
    exact ⟨rfl, rfl, rfl⟩
  | start | resume =>
    change r.start.2.loop.maxFrame = _ ∧ r.start.2.loop.accumulator = _ ∧
      r.start.2.loop.lastTime = _
    rw [start_of_running hbefore]
    exact ⟨rfl, rfl, rfl⟩
  | setTimestep ms =>
    unfold Task.outcome
    cases h : Loop.timestepOf ms with
    | error fault => simp only [perform, bind, EStateM.bind, Task.look, h, and_self]
    | ok timestep =>
      simp only [perform, bind, EStateM.bind, Task.look, h]
      exact ⟨rfl, rfl, rfl⟩
  | renew =>
    obtain ⟨state, source, recent, -, -, h⟩ := renew_leaves r
    rw [h]
    exact ⟨rfl, rfl, rfl⟩
  | reset =>
    rw [reset_loop] at hrun
    exact absurd hrun (Bool.eq_false_iff.1 (stop_running r))
  | destroy => exact absurd hrun (Bool.eq_false_iff.1 (stop_running r))
  | close => exact absurd hrun (Bool.eq_false_iff.1 (stop_running { r with closed := true }))
  | resetTracking => exact ⟨rfl, rfl, rfl⟩
  | forceTick | forceTicks => cases hforces
  | advanceClock | setClock => exact absurd rfl hclock
  | _ => exact absurd rfl hstill

theorem framesOn_cases (q : Request) (r : Room) : framesOn q r = [] ∨
    ∃ b l, framesOn q r = [b] ∧ b = { r with loop := l } ∧ l.pace = r.loop.pace ∧
      l.running = r.loop.running ∧ ((perform q).outcome r).2 = (frame.outcome b).2 := by
  cases q with
  | frame => exact .inr ⟨r, r.loop, rfl, rfl, rfl, rfl, outcome_bind_pure frame Answer.count r⟩
  | advanceHost ms =>
    rw [perform, outcome_bind_pure]
    cases hhost : Json.addedTo r.loop.host ms with
    | error fault => exact .inl (by simp only [framesOn, hhost])
    | ok host =>
      rw [advanceHost_ok hhost]
      simp only [framesOn, hhost]
      split_ifs with hthread
      · exact .inr ⟨_, _, rfl, rfl, rfl, rfl, rfl⟩
      · exact .inl rfl
  | _ => exact .inl rfl

theorem counted_eq_frameTicks {q : Request} (hforces : q.forces = false) (r : Room) :
    q.counted r = ((framesOn q r).map frameTicks).sum := by
  cases q with
  | frame => rfl
  | advanceHost ms =>
    cases hhost : Json.addedTo r.loop.host ms with
    | error fault => simp only [Request.counted, Request.hostTicks, framesOn, hhost, List.map_nil,
        List.sum_nil]
    | ok host =>
      simp only [Request.counted, Request.hostTicks, framesOn, hhost]
      split_ifs <;> rfl
  | forceTick | forceTicks | incrementTick => cases hforces
  | _ => rfl

theorem countedOver_eq_frameTicksOver {qs : List Request} (h : Unbroken step qs r) :
    countedOver qs r = frameTicksOver qs r := by
  induction qs generalizing r with
  | nil => rfl
  | cons q qs ih =>
    rw [countedOver, frameTicksOver, framesOver, List.map_append, List.sum_append,
      counted_eq_frameTicks h.1, ih h.2.2.2, frameTicksOver]

/-! ### Runs -/

/-- The whole milliseconds that frames count at such readings of the clock. -/
def elapsedOver (bound : Int) : Int → List Int → Int
  | _, [] => 0
  | last, t :: ts => Loop.counted bound last t + elapsedOver bound t ts

/-- The readings never go back and never jump by more than the bound. -/
def Smooth (bound : Int) : Int → List Int → Prop
  | _, [] => True
  | last, t :: ts => last ≤ t ∧ t - last ≤ bound ∧ Smooth bound t ts

theorem elapsedOver_smooth {ts : List Int} (h : Smooth bound last ts) :
    elapsedOver bound last ts = ts.getLastD last - last := by
  induction ts generalizing last with
  | nil => simp [elapsedOver]
  | cons t ts ih =>
    obtain ⟨hback, hjump, hrest⟩ := h
    rw [elapsedOver, ih hrest, Loop.counted, min_eq_left hjump, max_eq_right (by omega),
      List.getLastD_cons]
    omega

theorem ediv_add_ediv {a b step : Int} (hpos : 0 < step) :
    a / step + (a % step + b) / step = (a + b) / step ∧ (a % step + b) % step = (a + b) % step := by
  have hsplit : a + b = a % step + b + step * (a / step) := by
    have := Int.emod_add_mul_ediv a step
    omega
  constructor
  · rw [hsplit, Int.add_mul_ediv_left _ _ hpos.ne']
    omega
  · rw [hsplit, Int.add_mul_emod_self_left]

theorem run_paces {qs : List Request} {ts : List Int} (h : Paces step bound unspent last r.loop)
    (hpos : 1 ≤ step) (hstep : step ≤ 100) (hbound : 0 ≤ bound) (hframe : bound ≤ 2 ^ 52)
    (hlow : 0 ≤ unspent) (hless : unspent < step) (hlast : last.natAbs ≤ 2 ^ 52)
    (hreadings : List.Forall₂ (fun b t => IsWhole b.loop.host t) (framesOver qs r) ts)
    (hsmall : ∀ t ∈ ts, t.natAbs ≤ 2 ^ 52) (hunbroken : Unbroken step qs r) :
    (∀ b ∈ framesOver qs r, (frame.outcome b).1 = .ok b.frameTicks) ∧
      (frameTicksOver qs r : Int) = (unspent + elapsedOver bound last ts) / step ∧
      IsWhole (run qs r).2.loop.accumulator ((unspent + elapsedOver bound last ts) % step) := by
  -- What a frame does not spend is less than a tick, and is there again for the next one.
  induction qs generalizing r unspent last ts with
  | nil =>
    cases hreadings
    rw [elapsedOver, add_zero, Int.ediv_eq_zero_of_lt hlow hless, Int.emod_eq_of_lt hlow hless]
    exact ⟨by simp [framesOver], rfl, h.accumulator⟩
  | cons q qs ih =>
    obtain ⟨hforces, hrun, htimestep, hrest⟩ := hunbroken
    rw [framesOver] at hreadings ⊢
    rw [frameTicksOver, framesOver]
    rcases framesOn_cases q r with hnone | ⟨b, l, hone, hb, hpace, hrunning, hend⟩
    · rw [hnone] at hreadings ⊢
      obtain ⟨hbound', haccumulator, hlastTime⟩ := perform_loop hnone hforces h.running hrun
      exact ih ⟨hrun, htimestep, hbound' ▸ h.maxFrame, haccumulator ▸ h.accumulator,
        hlastTime ▸ h.lastTime⟩ hlow hless hlast hreadings hsmall hrest
    · rw [hone] at hreadings ⊢
      cases hreadings with
      | @cons _ t _ ts hhost hlater =>
        rw [List.forall_mem_cons] at hsmall
        have hb' : Paces step bound unspent last b.loop := by
          rw [hb]
          exact h.of_pace (hrunning ▸ h.running) hpace
        rw [hend] at hrun
        obtain ⟨hreturns, hticks, hpaces⟩ := frame_paces hb' hhost hpos hstep hbound hframe hlow
          hless hlast hsmall.1 hrun
        rw [← hend] at hpaces
        obtain ⟨hall, hsum, haccumulator⟩ := ih hpaces (Int.emod_nonneg _ (by omega))
          (Int.emod_lt_of_pos _ (by omega)) hsmall.1 hlater hsmall.2 hrest
        obtain ⟨hquotient, hremainder⟩ := ediv_add_ediv (a := unspent + Loop.counted bound last t)
          (b := elapsedOver bound t ts) (show 0 < step by omega)
        rw [hremainder] at haccumulator
        rw [elapsedOver, ← add_assoc]
        refine ⟨List.forall_mem_cons.2 ⟨hreturns, hall⟩, ?_, haccumulator⟩
        rw [List.map_append, List.sum_append, List.map_singleton, List.sum_singleton, ← hquotient,
          Nat.cast_add, hticks]
        congr 1

/-- A loop with whole milliseconds is started, and frames find the clock at such readings while it
keeps running. -/
structure Scheduled (step bound first : Int) (ts : List Int) (qs : List Request) (r : Room) :
    Prop where
  step_pos : 1 ≤ step
  step_le : step ≤ 100
  bound_nonneg : 0 ≤ bound
  bound_le : bound ≤ 2 ^ 52
  timestep : IsWhole r.loop.timestep step
  maxFrame : r.loop.maxFrame.Means bound
  stopped : r.loop.running = false
  starts : r.start.1 = true
  host : IsWhole r.loop.host first
  small : ∀ t ∈ first :: ts, t.natAbs ≤ 2 ^ 52
  readings : List.Forall₂ (fun b t => IsWhole b.loop.host t) (framesOver qs r.start.2) ts
  unbroken : Unbroken step qs r.start.2

variable {first : Int} {ts : List Int} {qs : List Request}

theorem start_loop (hstopped : r.loop.running = false) (hstarts : r.start.1 = true) :
    r.start.2.loop = r.loop.started := by
  unfold start at hstarts ⊢
  rw [if_neg (by simp [hstopped])] at hstarts ⊢
  split at hstarts
  · rfl
  · cases hstarts

theorem Scheduled.begins (h : Scheduled step bound first ts qs r) :
    Paces step bound 0 first r.start.2.loop := by
  rw [start_loop h.stopped h.starts]
  exact ⟨rfl, h.timestep, h.maxFrame, .zero, h.host⟩

/-- However frames cut the time, each returns, together they tick as often as the time that they
count is enough for, and the rest is not spent. So frames that miss nothing between the same two
readings tick equally often. -/
theorem ticks_by_elapsed (h : Scheduled step bound first ts qs r) :
    (∀ b ∈ framesOver qs r.start.2, (frame.outcome b).1 = .ok b.frameTicks) ∧
      (frameTicksOver qs r.start.2 : Int) = elapsedOver bound first ts / step ∧
      ((∀ q ∈ qs, q.restarts = false) →
        (run qs r.start.2).2.state.tick = r.state.tick + frameTicksOver qs r.start.2) ∧
      IsWhole (run qs r.start.2).2.loop.accumulator (elapsedOver bound first ts % step) ∧
      ∀ {bound' : Int} {ts' : List Int} {qs' : List Request} {r' : Room},
        Scheduled step bound' first ts' qs' r' → Smooth bound first ts →
        Smooth bound' first ts' → ts'.getLastD first = ts.getLastD first →
        frameTicksOver qs' r'.start.2 = frameTicksOver qs r.start.2 := by
  have hsum {bound : Int} {ts : List Int} {qs : List Request} {r : Room}
      (h : Scheduled step bound first ts qs r) :=
    run_paces h.begins h.step_pos h.step_le h.bound_nonneg h.bound_le le_rfl h.step_pos
      (h.small first List.mem_cons_self) h.readings
      (fun t ht => h.small t (List.mem_cons_of_mem _ ht)) h.unbroken
  simp only [zero_add] at hsum
  obtain ⟨hreturns, hticks, haccumulator⟩ := hsum h
  refine ⟨hreturns, hticks, fun hqs => ?_, haccumulator, ?_⟩
  · have hstart : r.start.2.state.tick = r.state.tick := (start_passes r).ages.state.tick
    rw [(run_ages hqs _).state.tick, hstart, countedOver_eq_frameTicksOver h.unbroken]
  · intro bound' ts' qs' r' h' hsmooth hsmooth' hend
    obtain ⟨-, hticks', -⟩ := hsum h'
    rw [elapsedOver_smooth hsmooth', hend, ← elapsedOver_smooth hsmooth, ← hticks] at hticks'
    exact_mod_cast hticks'

def framesAt (ts : List Int) : List Request := ts.flatMap fun t => [.setHost (.int t), .frame]

def failing : Table Json :=
  [("meta", .object []),
    ("vars", .object [("level", .object [("value", .int 0), ("min", .int 0), ("max", .int 10)])]),
    ("rules", .list [.object [("trigger", .text "tick"), ("effects", .list [
      .object [("type", .text "set_var"), ("target", .text "level"),
        ("value", .int (2 ^ 1024))]])]])]

instance (x : Float) (n : Int) : Decidable (IsWhole x n) :=
  decidable_of_iff (x.isFinite ∧ Grid.spot x = n * Grid.unity)
    ⟨fun h => ⟨h.1, h.2⟩, fun h => ⟨h.finite, h.spot⟩⟩

instance decidableUnbroken (step : Int) :
    (qs : List Request) → (r : Room) → Decidable (Unbroken step qs r)
  | [], _ => inferInstanceAs (Decidable True)
  | _ :: qs, _ =>
    have := decidableUnbroken step qs
    inferInstanceAs (Decidable (_ ∧ _ ∧ _ ∧ _))

instance decidableSmooth (bound : Int) :
    (last : Int) → (ts : List Int) → Decidable (Smooth bound last ts)
  | _, [] => inferInstanceAs (Decidable True)
  | _, t :: ts =>
    have := decidableSmooth bound t ts
    inferInstanceAs (Decidable (_ ∧ _ ∧ _))

/-- The clock goes on, back, and then further than a frame counts; and it goes on in three steps or
in two. -/
theorem ticks_by_elapsed_failing :
    ∃ d r, d.Parsed ∧ create d .still = .ok r ∧
      Scheduled 16 50 0 [40, 20, 100] (framesAt [40, 20, 100]) r ∧
      frameTicksOver (framesAt [40, 20, 100]) r.start.2 = 5 ∧
      (run (framesAt [40, 20, 100]) r.start.2).2.state.tick = 5 ∧
      IsWhole (run (framesAt [40, 20, 100]) r.start.2).2.loop.accumulator 10 ∧
      frameTicksOver (framesAt [10, 50, 100]) r.start.2 =
        frameTicksOver (framesAt [50, 100]) r.start.2 := by
  obtain ⟨d, hd⟩ : ∃ d, Definition.ofFields failing = .ok d := ⟨_, rfl⟩
  obtain ⟨r, hr⟩ : ∃ r, create d .still = .ok r := by
    cases hd
    exact ⟨_, rfl⟩
  have hscheduled {ts : List Int} (hsmall : ∀ t ∈ 0 :: ts, t.natAbs ≤ 2 ^ 52)
      (hreadings : List.Forall₂ (fun b t => IsWhole b.loop.host t)
        (framesOver (framesAt ts) r.start.2) ts)
      (hunbroken : Unbroken 16 (framesAt ts) r.start.2) :
      Scheduled 16 50 0 ts (framesAt ts) r := by
    cases hd
    cases hr
    exact ⟨by decide, by decide, by decide, by decide, by decide +kernel, ⟨.int 50, rfl, .int 50⟩,
      rfl, rfl, .zero, hsmall, hreadings, hunbroken⟩
  have hback : Scheduled 16 50 0 [40, 20, 100] (framesAt [40, 20, 100]) r := by
    cases hd
    cases hr
    exact hscheduled (by decide) (by decide +kernel) (by decide +kernel)
  have hthree : Scheduled 16 50 0 [10, 50, 100] (framesAt [10, 50, 100]) r := by
    cases hd
    cases hr
    exact hscheduled (by decide) (by decide +kernel) (by decide +kernel)
  have htwo : Scheduled 16 50 0 [50, 100] (framesAt [50, 100]) r := by
    cases hd
    cases hr
    exact hscheduled (by decide) (by decide +kernel) (by decide +kernel)
  obtain ⟨-, hticks, hcount, hrest, -⟩ := ticks_by_elapsed hback
  obtain ⟨-, -, -, -, hcut⟩ := ticks_by_elapsed htwo
  have hfive : frameTicksOver (framesAt [40, 20, 100]) r.start.2 = 5 := by
    have htime : elapsedOver 50 0 [40, 20, 100] / 16 = 5 := rfl
    rw [htime] at hticks
    exact_mod_cast hticks
  have htick := hcount (by decide)
  rw [hfive] at htick
  refine ⟨d, r, ⟨failing, hd⟩, hr, hback, hfive, ?_, hrest,
    hcut hthree (by decide) (by decide) rfl⟩
  rw [htick]
  cases hd
  cases hr
  rfl

end Gameroom.Room
