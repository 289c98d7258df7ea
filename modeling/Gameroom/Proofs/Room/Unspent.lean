import Gameroom.Proofs.Loop.Unspent
import Gameroom.Proofs.Room.Anew
import Gameroom.Proofs.Room.Driven
import Gameroom.Proofs.Room.Pace
import Gameroom.Proofs.Room.Started

/-!
The time that a loop has not spent. A stop discards it, but a frame in which a tick stops the loop
takes the length of that tick from what is discarded, and so leaves a debt; and a fault may end a
frame before whole ticks are spent. In every other run what is left is not below zero, is less than
a tick of the last frame, and nothing while the loop is stopped.
-/

namespace Gameroom.Room

open Loop (Lasting Vain Enough)

variable {d : Definition} {o : Options} {r r' b : Room}

/-! ### Where no time is counted -/

/-- What is not spent is kept while the loop goes on as it is, or it is discarded. -/
def Discards (r r' : Room) : Prop :=
  r'.loop.accumulator = 0 ∨
    r'.loop.running = r.loop.running ∧ r'.loop.accumulator = r.loop.accumulator

instance : IsPreorder Room Discards where
  refl _ := .inr ⟨rfl, rfl⟩
  trans _ _ _ h h' := by
    rcases h' with h' | ⟨hrunning, hsame⟩
    · exact .inl h'
    · rcases h with h | ⟨hrunning', hsame'⟩
      · exact .inl (hsame.trans h)
      · exact .inr ⟨hrunning.trans hrunning', hsame.trans hsame'⟩

/-- What is not spent is kept or discarded, and the length of ticks is kept. -/
structure Bides (r r' : Room) : Prop where
  timestep : r'.loop.timestep = r.loop.timestep
  discards : Discards r r'

instance : IsPreorder Room Bides where
  refl r := ⟨rfl, refl_of Discards r⟩
  trans _ _ _ h h' := ⟨h'.timestep.trans h.timestep, trans_of Discards h.discards h'.discards⟩

theorem bides_of_loop (h : r'.loop = r.loop) : Bides r r' :=
  ⟨by rw [h], .inr ⟨by rw [h], by rw [h]⟩⟩

theorem halt_bides (r : Room) : Bides r r.halt := by
  unfold halt
  split_ifs
  · exact ⟨rfl, .inl rfl⟩
  · exact refl_of Bides r

theorem stop_bides (r : Room) : Bides r r.stop := by
  unfold stop
  split_ifs
  · have hpause : Bides r.halt { r.halt with state := r.halt.state.pause.2 } := bides_of_loop rfl
    exact trans_of Bides (halt_bides r) hpause
  · exact refl_of Bides r

theorem timeless_bides : Timeless Bides where
  work r := bides_of_loop rfl
  act _ _ _ r := bides_of_loop rfl
  start r := by
    rcases start_cases r with ⟨-, hs⟩ | ⟨-, hs⟩ | ⟨-, -, hs⟩ <;> rw [hs]
    · exact refl_of Bides r
    · exact ⟨rfl, .inl rfl⟩
    · exact refl_of Bides r
  stop := stop_bides
  halt := halt_bides
  loop _ _ hrunning htimestep hsame := ⟨htimestep, .inr ⟨hrunning, hsame⟩⟩
  notes _ _ _ := bides_of_loop rfl

/-! ### Where time is spent -/

/-- A loop whose time was spent either still runs, with less than a tick left or with ticks that are
in vain, or a tick has stopped it, and its length is owed. -/
structure Settled (step : Float) (l : Loop) : Prop where
  timestep : l.timestep = step
  runs : l.running → 0 ≤ l.accumulator ∧ (l.accumulator < step ∨ Vain l.accumulator step)
  owes : l.running = false → l.accumulator = 0 - step

theorem spend_stopped (fuel count : Nat) (h : r.loop.running = false) :
    (spend fuel count r).2 = r := by
  cases fuel with
  | zero => rfl
  | succ fuel => rw [spend_succ, if_neg (by simp [h])]

theorem spendOne_cases (hrun : r.loop.running) : r.spendOne.loop.timestep = r.loop.timestep ∧
    (r.spendOne.loop.running ∧
        r.spendOne.loop.accumulator = r.loop.accumulator - r.loop.timestep ∨
      r.spendOne.loop.running = false ∧ r.spendOne.loop.accumulator = 0 - r.loop.timestep) := by
  have hbides : Bides r r.tick := timeless_bides.tick r
  have htaken : r.spendOne.loop.accumulator = r.tick.loop.accumulator - r.tick.loop.timestep := rfl
  refine ⟨hbides.timestep, ?_⟩
  rw [htaken, hbides.timestep]
  cases hafter : r.spendOne.loop.running with
  | true =>
    have hpace := (spendOne_loop hafter).2
    simp only [Loop.pace, Prod.mk.injEq] at hpace
    exact .inl ⟨rfl, by rw [hpace.2.2.1]⟩
  | false =>
    rcases hbides.discards with hnone | ⟨hsame, -⟩
    · exact .inr ⟨rfl, by rw [hnone]⟩
    · exact absurd (hsame.trans hrun) (Bool.eq_false_iff.1 hafter)

theorem spend_settles (fuel count : Nat) (hrun : r.loop.running) (hstep : Lasting r.loop.timestep)
    (ha : 0 ≤ r.loop.accumulator) (henough : Enough fuel r.loop.accumulator r.loop.timestep) :
    Settled r.loop.timestep (spend fuel count r).2.loop := by
  induction fuel generalizing count r with
  | zero =>
    refine ⟨rfl, fun _ => ⟨ha, henough.ended hstep ha⟩, fun hstopped => ?_⟩
    exact absurd hrun (Bool.eq_false_iff.1 hstopped)
  | succ fuel ih =>
    rw [spend_succ]
    split_ifs with hdue
    · obtain ⟨htimestep, ⟨hruns, htaken⟩ | ⟨hstopped, howed⟩⟩ := spendOne_cases hrun
      · have hrest := ih (count + 1) hruns (htimestep ▸ hstep)
          (htaken ▸ Grid.sub_nonneg_of_le hstep.finite hstep.nonneg hdue.1)
          (by rw [htimestep, htaken]; exact henough.next hstep hdue.1)
        rwa [htimestep] at hrest
      · rw [spend_stopped fuel _ hstopped]
        exact ⟨htimestep, fun h => absurd h (Bool.eq_false_iff.1 hstopped), fun _ => howed⟩
    · have hless := hstep.lt_of_not_le ha fun hle => hdue ⟨hle, hrun⟩
      exact ⟨rfl, fun _ => ⟨ha, .inl hless⟩, fun h => absurd hrun (Bool.eq_false_iff.1 h)⟩

theorem frame_settles (hrun : b.loop.running) (hstep : Lasting b.loop.timestep)
    (ha : 0 ≤ b.loop.accumulator) :
    (∃ fault x, frame b = .error fault (timed b.loop.host b.loop.accumulator x b)) ∨
      ∃ n r, frame b = .ok n r ∧ Settled b.loop.timestep r.loop := by
  cases htime : b.loop.elapsed >>= Json.toFloat with
  | error fault => exact .inl ⟨fault, frame_untold hrun htime⟩
  | ok x =>
    have hnow : 0 ≤ (b.afterTime x).loop.accumulator :=
      Grid.add_nonneg ha (Loop.elapsed_nonneg htime)
    exact .inr ⟨_, _, frame_begun hrun htime,
      spend_settles (r := b.afterTime x) _ 0 hrun hstep hnow (Loop.enough_ticksWithin hstep hnow)⟩

/-! ### Requests -/

theorem setUp_discards {q : Request} (hset : q.setsUp) (r : Room) :
    (perform q).Moves Discards r := by
  have hloop {r : Room} {f : Loop → Loop} (hrunning : (f r.loop).running = r.loop.running)
      (hsame : (f r.loop).accumulator = r.loop.accumulator) : (alterLoop f).Moves Discards r :=
    alter_moves (.inr ⟨hrunning, hsame⟩)
  cases q with
  | setHost ms =>
    have hhost : (setHost ms).Moves Discards r :=
      (Task.moves_look _ r).bind fun _ _ _ => Task.moves_modify (.inr ⟨rfl, rfl⟩)
    exact hhost.bind fun _ r₁ _ => Task.moves_pure _ r₁
  | setTimestep ms => exact (Task.moves_look _ r).bind fun _ _ _ => hloop rfl rfl
  | onTick | onError => exact hloop rfl rfl
  | removeTick key =>
    unfold perform
    exact hloop rfl rfl
  | removeError key =>
    unfold perform
    exact hloop rfl rfl
  | resetTracking => exact alter_moves (.inr ⟨rfl, rfl⟩)
  | seen => exact Task.moves_modifyGet (.inr ⟨rfl, rfl⟩)
  | _ => cases hset

theorem perform_discards {q : Request} (hframe : framesOn q r = []) :
    Discards r ((perform q).outcome r).2 := by
  cases q.aim with
  | looks hidle hset =>
    rw [← perform_look hidle hset r]
    exact refl_of Discards r
  | setsUp _ hset => exact setUp_discards hset r
  | edits hedits =>
    obtain ⟨s, -, hend⟩ := perform_edited hedits r
    rw [hend]
    exact .inr ⟨rfl, rfl⟩
  | course hcourse =>
    -- Time is counted on frames only, and there is none.
    cases htime : q.countsTime with
    | false => exact Bides.discards (timeless_bides.perform hcourse htime r)
    | true =>
      cases q with
      | frame => cases hframe
      | advanceHost ms =>
        obtain ⟨host, hend⟩ := perform_advanceHost hframe
        rw [hend]
        exact .inr ⟨rfl, rfl⟩
      | _ => cases htime
  | clock hclock =>
    obtain ⟨clock, hend⟩ := perform_clock q r hclock
    rw [hend]
    exact .inr ⟨rfl, rfl⟩
  | cooldowns hhandles =>
    obtain ⟨cooldowns, hend⟩ := perform_handled hhandles r
    rw [hend]
    exact .inr ⟨rfl, rfl⟩
  | join data =>
    rcases join_cases data r with ⟨fault, ids, hend⟩ | ⟨p, -, -, hend⟩ <;> rw [hend] <;>
      exact .inr ⟨rfl, rfl⟩
  | leave id =>
    rw [perform, outcome_bind_pure]
    rcases removePlayer_cases id r with hend | ⟨name, -, hend⟩ <;>
      rw [Task.outcome_ok hend] <;> exact .inr ⟨rfl, rfl⟩
  | drop id =>
    rw [perform, outcome_bind_pure]
    exact .inr ⟨rfl, rfl⟩
  | renew =>
    obtain ⟨state, source, recent, -, -, hend⟩ := renew_leaves r
    rw [hend]
    exact .inr ⟨rfl, rfl⟩
  | reset =>
    have hstop : Discards r r.stop := (stop_bides r).discards
    unfold Discards at hstop ⊢
    rwa [reset_loop]
  | destroy => exact (stop_bides r).discards
  | close =>
    have hstop := (stop_bides { r with closed := true }).discards
    exact hstop
  | count | clearHistory | clearRecent => exact .inr ⟨rfl, rfl⟩

/-! ### Frames of a run -/

theorem framesOver_append (qs qs' : List Request) (r : Room) :
    framesOver (qs ++ qs') r = framesOver qs r ++ framesOver qs' (run qs r).2 := by
  induction qs generalizing r with
  | nil => rfl
  | cons q qs ih =>
    rw [List.cons_append, framesOver, ih, framesOver, List.append_assoc]
    rfl

theorem framesOver_concat (qs : List Request) (q : Request) (r : Room) :
    framesOver (qs ++ [q]) r = framesOver qs r ++ framesOn q (run qs r).2 := by
  rw [framesOver_append, framesOver, framesOver, List.append_nil]

theorem exists_of_mem_framesOver {qs : List Request} (hb : b ∈ framesOver qs r) :
    ∃ qs' q, qs' ++ [q] <+: qs ∧ framesOn q (run qs' r).2 = [b] := by
  induction qs using List.reverseRecOn with
  | nil => cases hb
  | append_singleton qs q ih =>
    rw [framesOver_concat, List.mem_append] at hb
    rcases hb with hb | hb
    · obtain ⟨qs', q', hprefix, hone⟩ := ih hb
      exact ⟨qs', q', hprefix.trans (List.prefix_append _ _), hone⟩
    · refine ⟨qs, q, List.prefix_refl _, ?_⟩
      rcases framesOn_cases q (run qs r).2 with hnone | ⟨b', l, hone, -⟩
      · rw [hnone] at hb
        cases hb
      · rw [hone] at hb
        rw [hone, List.mem_singleton.1 hb]

theorem framesOn_eq {q : Request} (hone : framesOn q r = [b]) :
    b.loop.timestep = r.loop.timestep ∧ Discards r b ∧
      ((perform q).outcome r).2 = (frame.outcome b).2 := by
  rcases framesOn_cases q r with hnone | ⟨b', l, hone', hb, hpace, hrunning, hend⟩
  · rw [hnone] at hone
    cases hone
  · obtain rfl := List.singleton_inj.1 (hone'.symm.trans hone)
    simp only [Loop.pace, Prod.mk.injEq] at hpace
    rw [hb]
    exact ⟨hpace.1, .inr ⟨hrunning, hpace.2.2.1⟩, hb ▸ hend⟩

/-- The length of ticks at the last frame of a run. -/
def lastTimestep (qs : List Request) (r : Room) : Option Float :=
  (framesOver qs r).getLast?.map (·.loop.timestep)

theorem lastTimestep_concat {qs : List Request} {q : Request}
    (hone : framesOn q (run qs r).2 = [b]) :
    lastTimestep (qs ++ [q]) r = some b.loop.timestep := by
  rw [lastTimestep, framesOver_concat, hone, List.getLast?_concat, Option.map_some]

theorem run_lasting (hr : create d o = .ok r) (qs : List Request) :
    Lasting (run qs r).2.loop.timestep :=
  Loop.lasting_of_held (run_twins (create_twins hr) qs).2.held

theorem framesOver_lasting {qs : List Request} (hr : create d o = .ok r) :
    ∀ b ∈ framesOver qs r, Lasting b.loop.timestep := by
  intro b hb
  obtain ⟨qs', q, -, hone⟩ := exists_of_mem_framesOver hb
  rw [(framesOn_eq hone).1]
  exact run_lasting hr qs'

theorem lastTimestep_lasting {qs : List Request} (hr : create d o = .ok r) :
    ∀ step ∈ lastTimestep qs r, Lasting step := by
  intro step hstep
  obtain ⟨b, hb, rfl⟩ := Option.map_eq_some_iff.1 hstep
  exact framesOver_lasting hr b (List.mem_of_getLast? hb)

/-- What the books of a loop say over a run follows from what they say of a new loop, if it outlasts
what discards time and the frames of the run. -/
theorem run_books {P : Option Float → Loop → Prop} {qs : List Request} (hr : create d o = .ok r)
    (hnew : ∀ l : Loop, l.running = false → l.accumulator = 0 → P none l)
    (hdiscards : ∀ last (r r' : Room), (∀ step ∈ last, Lasting step) → Discards r r' →
      P last r.loop → P last r'.loop)
    (hframe : ∀ b ∈ framesOver qs r, ∀ last, Lasting b.loop.timestep → P last b.loop →
      P (some b.loop.timestep) (frame.outcome b).2.loop) :
    P (lastTimestep qs r) (run qs r).2.loop := by
  induction qs using List.reverseRecOn with
  | nil =>
    obtain ⟨s, source, timestep, -, -, rfl⟩ := made_of_create hr
    exact hnew _ rfl rfl
  | append_singleton qs q ih =>
    rw [framesOver_concat] at hframe
    have hbefore := ih fun b hb => hframe b (List.mem_append_left _ hb)
    rw [run_concat]
    -- The last request holds no frame and only discards, or it holds exactly one.
    rcases framesOn_cases q (run qs r).2 with hnone | ⟨b, -, hone, -⟩
    · have hlast : lastTimestep (qs ++ [q]) r = lastTimestep qs r := by
        rw [lastTimestep, framesOver_concat, hnone, List.append_nil]
        rfl
      rw [hlast]
      exact hdiscards _ _ _ (lastTimestep_lasting hr) (perform_discards hnone) hbefore
    · obtain ⟨htimestep, hbegins, hend⟩ := framesOn_eq hone
      rw [lastTimestep_concat hone, hend]
      exact hframe b (List.mem_append_right _ (hone ▸ List.mem_singleton_self b)) _
        (htimestep ▸ run_lasting hr qs)
        (hdiscards _ _ _ (lastTimestep_lasting hr) hbegins hbefore)

/-! ### The books -/

/-- What a loop has not spent is never below zero, is less than the ticks of the last frame lasted,
and nothing while the loop is stopped. -/
structure Booked (last : Option Float) (l : Loop) : Prop where
  nonneg : 0 ≤ l.accumulator
  spent : l.running → ∀ step ∈ last, l.accumulator < step
  discarded : l.running = false → l.accumulator = 0

/-- No tick of a frame stops the loop, and no fault ends the frame while a whole tick is not
spent. -/
structure Clears (b : Room) : Prop where
  running : b.loop.running → (frame.outcome b).2.loop.running
  spent : ∀ fault, (frame.outcome b).1 = .error fault → b.loop.accumulator < b.loop.timestep

/-- There is time left for ticks for ever, since each of them is in vain. -/
def Endless (r : Room) : Prop := r.loop.running ∧ Vain r.loop.accumulator r.loop.timestep

theorem Endless.next (h : Endless r) (hstep : Lasting r.loop.timestep)
    (hrun : r.spendOne.loop.running) : Endless r.spendOne := by
  obtain ⟨htimestep, ⟨-, htaken⟩ | ⟨hstopped, -⟩⟩ := spendOne_cases h.1
  · refine ⟨hrun, ?_⟩
    rw [htimestep, htaken]
    exact h.2.next hstep
  · exact absurd hrun (Bool.eq_false_iff.1 hstopped)

theorem Booked.discards {last : Option Float} (h : Booked last r.loop)
    (hlast : ∀ step ∈ last, Lasting step) (hr : Discards r r') : Booked last r'.loop := by
  rcases hr with hnone | ⟨hrunning, hsame⟩
  · refine ⟨?_, fun _ step hstep => ?_, fun _ => hnone⟩ <;> rw [hnone]
    · decide
    · exact (hlast step hstep).zero_lt
  · refine ⟨hsame ▸ h.nonneg, ?_, ?_⟩
    · rw [hrunning, hsame]
      exact h.spent
    · rw [hrunning, hsame]
      exact h.discarded

theorem Booked.framed {last : Option Float} (h : Booked last b.loop)
    (hstep : Lasting b.loop.timestep) (hclears : Clears b)
    (hends : ¬ Endless (frame.outcome b).2) :
    Booked (some b.loop.timestep) (frame.outcome b).2.loop := by
  cases hrun : b.loop.running with
  | false =>
    rw [Task.outcome_ok (frame_stopped hrun)]
    exact ⟨h.nonneg, fun h => absurd h (Bool.eq_false_iff.1 hrun), h.discarded⟩
  | true =>
    have hruns := hclears.running hrun
    have hnever {P : Prop} (hstopped : (frame.outcome b).2.loop.running = false) : P :=
      absurd hruns (Bool.eq_false_iff.1 hstopped)
    rcases frame_settles hrun hstep h.nonneg with ⟨fault, x, hend⟩ | ⟨n, r, hend, hsettled⟩
    · have hspent := hclears.spent fault (by rw [Task.outcome_error hend])
      refine ⟨?_, fun _ step hlast => ?_, hnever⟩ <;> rw [Task.outcome_error hend]
      · exact h.nonneg
      · obtain rfl := Option.some_inj.1 hlast
        exact hspent
    · rw [Task.outcome_ok hend] at hruns hends hnever ⊢
      obtain ⟨hnonneg, hless⟩ := hsettled.runs hruns
      refine ⟨hnonneg, fun _ step hlast => ?_, hnever⟩
      obtain rfl := Option.some_inj.1 hlast
      refine hless.resolve_right fun hvain => hends ⟨hruns, ?_⟩
      rwa [hsettled.timestep]

theorem run_nonneg (hr : create d o = .ok r) (qs : List Request)
    (hrun : (run qs r).2.loop.running) : 0 ≤ (run qs r).2.loop.accumulator := by
  refine run_books (P := fun _ l => l.running → 0 ≤ l.accumulator) hr ?_ ?_ ?_ hrun
  · intro l _ hnone _
    rw [hnone]
    decide
  · rintro - r r' - (hnone | ⟨hrunning, hsame⟩) h hrun
    · rw [hnone]
      decide
    · rw [hsame]
      exact h (hrunning ▸ hrun)
  · rintro b - - hstep h hruns
    cases hrun : b.loop.running with
    | false =>
      rw [Task.outcome_ok (frame_stopped hrun)] at hruns ⊢
      exact h hruns
    | true =>
      rcases frame_settles hrun hstep (h hrun) with ⟨fault, x, hend⟩ | ⟨n, r, hend, hsettled⟩
      · rw [Task.outcome_error hend]
        exact h hrun
      · rw [Task.outcome_ok hend] at hruns ⊢
        exact (hsettled.runs hruns).1

theorem framesOver_nonneg {qs : List Request} (hr : create d o = .ok r) (hb : b ∈ framesOver qs r)
    (hrun : b.loop.running) : 0 ≤ b.loop.accumulator := by
  obtain ⟨qs', q, -, hone⟩ := exists_of_mem_framesOver hb
  obtain ⟨-, hnone | ⟨hrunning, hsame⟩, -⟩ := framesOn_eq hone
  · rw [hnone]
    decide
  · rw [hsame]
    exact run_nonneg hr qs' (hrunning ▸ hrun)

theorem frame_owes {qs : List Request} (hr : create d o = .ok r) (hb : b ∈ framesOver qs r)
    (hrun : b.loop.running) (hstopped : (frame.outcome b).2.loop.running = false) :
    (frame.outcome b).2.loop.accumulator = 0 - b.loop.timestep := by
  rcases frame_settles hrun (framesOver_lasting hr b hb) (framesOver_nonneg hr hb hrun) with
    ⟨fault, x, hend⟩ | ⟨n, r, hend, hsettled⟩
  · rw [Task.outcome_error hend] at hstopped
    exact absurd hrun (Bool.eq_false_iff.1 hstopped)
  · rw [Task.outcome_ok hend] at hstopped ⊢
    exact hsettled.owes hstopped

theorem clears_of_booked {qs : List Request} (hr : create d o = .ok r) (hb : b ∈ framesOver qs r)
    (hafter : Booked (some b.loop.timestep) (frame.outcome b).2.loop) : Clears b := by
  have hstep := framesOver_lasting hr b hb
  refine ⟨fun hrun => ?_, fun fault hfault => ?_⟩
  · by_contra hstopped
    have hdebt := hafter.nonneg
    rw [frame_owes hr hb hrun (Bool.eq_false_iff.2 hstopped)] at hdebt
    exact Grid.not_nonneg_of_debt hstep.finite hstep.pos hdebt
  · cases hrun : b.loop.running with
    | false =>
      rw [Task.outcome_ok (frame_stopped hrun)] at hfault
      cases hfault
    | true =>
      rcases frame_settles hrun hstep (framesOver_nonneg hr hb hrun) with
        ⟨fault', x, hend⟩ | ⟨n, r, hend, -⟩
      · rw [Task.outcome_error hend] at hafter
        exact hafter.spent hrun _ rfl
      · rw [Task.outcome_ok hend] at hfault
        cases hfault

/-- If the frames of a run come to their end, what is not spent is booked rightly at every time
exactly if no tick of a frame stops the loop and no fault ends a frame while a whole tick is not
spent. If a tick of a frame stops the loop, its length is taken from what the stop has discarded. -/
theorem booked_iff_clears (hr : create d o = .ok r) (qs : List Request)
    (hends : ∀ b ∈ framesOver qs r, ¬ Endless (frame.outcome b).2) :
    ((∀ qs', qs' <+: qs → Booked (lastTimestep qs' r) (run qs' r).2.loop) ↔
        ∀ b ∈ framesOver qs r, Clears b) ∧
      ∀ b ∈ framesOver qs r, b.loop.running → (frame.outcome b).2.loop.running = false →
        (frame.outcome b).2.loop.accumulator = 0 - b.loop.timestep := by
  refine ⟨⟨fun hbooks b hb => ?_, fun hclears qs' hprefix => ?_⟩,
    fun b hb hrun hstopped => frame_owes hr hb hrun hstopped⟩
  · obtain ⟨qs', q, hprefix, hone⟩ := exists_of_mem_framesOver hb
    have hafter := hbooks _ hprefix
    rw [lastTimestep_concat hone, run_concat, (framesOn_eq hone).2.2] at hafter
    exact clears_of_booked hr hb hafter
  · obtain ⟨later, rfl⟩ := hprefix
    rw [framesOver_append] at hends hclears
    refine run_books (P := Booked) hr (fun l hstopped hnone => ?_)
      (fun last r r' hlast hdiscards h => h.discards hlast hdiscards)
      fun b hb last hstep h => h.framed hstep (hclears b (List.mem_append_left _ hb))
        (hends b (List.mem_append_left _ hb))
    refine ⟨?_, fun hruns => absurd hruns (Bool.eq_false_iff.1 hstopped), fun _ => hnone⟩
    rw [hnone]
    decide

instance (a step : Float) : Decidable (Vain a step) :=
  inferInstanceAs (Decidable (_ ∧ _))

instance (r : Room) : Decidable (Endless r) :=
  inferInstanceAs (Decidable (_ ∧ _))

/-- Frames between starts and stops, with a part of a tick left at the first stop. -/
def halfway : List Request :=
  [.start, .advanceHost (.int 40), .frame, .pause, .resume, .setTimestep (.int 4),
    .advanceHost (.int 10), .frame, .forceTick, .stop]

theorem booked_iff_clears_uneventful :
    ∃ d r, d.Parsed ∧ create d .still = .ok r ∧
      (∀ b ∈ framesOver halfway r, ¬ Endless (frame.outcome b).2) ∧
      (∀ qs', qs' <+: halfway → Booked (lastTimestep qs' r) (run qs' r).2.loop) ∧
      (run (halfway.take 3) r).2.loop.accumulator = 8 ∧
      (run (halfway.take 9) r).2.loop.accumulator = 2 := by
  obtain ⟨d, hd⟩ : ∃ d, Definition.ofFields uneventful = .ok d := ⟨_, rfl⟩
  obtain ⟨r, hr⟩ : ∃ r, create d .still = .ok r := by
    cases hd
    exact ⟨_, rfl⟩
  have hends : ∀ b ∈ framesOver halfway r, ¬ Endless (frame.outcome b).2 := by
    cases hd
    cases hr
    decide +kernel
  have hframes : ∀ b ∈ framesOver halfway r, (frame.outcome b).2.loop.running ∧
      (frame.outcome b).1.toBool := by
    cases hd
    cases hr
    decide +kernel
  refine ⟨d, r, ⟨uneventful, hd⟩, hr, hends,
    (booked_iff_clears hr halfway hends).1.2 fun b hb => ?_, ?_⟩
  · obtain ⟨hruns, hok⟩ := hframes b hb
    refine ⟨fun _ => hruns, fun fault hfault => ?_⟩
    rw [hfault] at hok
    cases hok
  · cases hd
    cases hr
    decide +kernel

/-- Options for a room whose frames count whatever time has passed. -/
def Options.boundless : Options :=
  { Options.still with config := ⟨.int 100, .int (10 ^ 400), .int 1, "INFO"⟩ }

/-- Half a tick is left when ticks become short; then more time has passed than a float can tell. -/
def rushed : List Request :=
  [.start, .advanceHost (.int 50), .frame, .setHost (.int (-17 * 10 ^ 307)), .frame,
    .setTimestep (.int 1), .setHost (.int (17 * 10 ^ 307)), .frame]

/-- A tick that finishes the game leaves the loop stopped with a debt, and a fault leaves a loop
that runs with fifty ticks, which the next frame takes. -/
theorem debt_of_finale :
    (∃ d r, d.Parsed ∧ create d .still = .ok r ∧
      (run [.start, .advanceHost (.int 16), .frame] r).2.loop.running = false ∧
      (run [.start, .advanceHost (.int 16), .frame] r).2.loop.accumulator = -16 ∧
      ¬ Booked (lastTimestep [.start, .advanceHost (.int 16), .frame] r)
        (run [.start, .advanceHost (.int 16), .frame] r).2.loop) ∧
    ∃ d r, d.Parsed ∧ create d .boundless = .ok r ∧
      (∀ b ∈ framesOver rushed r, ¬ Endless (frame.outcome b).2) ∧
      (run rushed r).2.loop.running ∧ (run rushed r).2.loop.accumulator = 50 ∧
      lastTimestep rushed r = some 1 ∧ (run rushed r).2.frameTicks = 50 ∧
      ¬ Booked (lastTimestep rushed r) (run rushed r).2.loop := by
  constructor
  · obtain ⟨d, hd⟩ : ∃ d, Definition.ofFields (finale 5) = .ok d := ⟨_, rfl⟩
    obtain ⟨r, hr⟩ : ∃ r, create d .still = .ok r := by
      cases hd
      exact ⟨_, rfl⟩
    have hdebt : (run [.start, .advanceHost (.int 16), .frame] r).2.loop.running = false ∧
        (run [.start, .advanceHost (.int 16), .frame] r).2.loop.accumulator = -16 := by
      cases hd
      cases hr
      decide +kernel
    refine ⟨d, r, ⟨finale 5, hd⟩, hr, hdebt.1, hdebt.2, fun hbooked => ?_⟩
    have hnonneg := hbooked.nonneg
    rw [hdebt.2] at hnonneg
    exact absurd hnonneg (by decide +kernel)
  · obtain ⟨d, hd⟩ : ∃ d, Definition.ofFields uneventful = .ok d := ⟨_, rfl⟩
    obtain ⟨r, hr⟩ : ∃ r, create d .boundless = .ok r := by
      cases hd
      exact ⟨_, rfl⟩
    have hmore : (∀ b ∈ framesOver rushed r, ¬ Endless (frame.outcome b).2) ∧
        (run rushed r).2.loop.running ∧ (run rushed r).2.loop.accumulator = 50 ∧
        lastTimestep rushed r = some 1 ∧ (run rushed r).2.frameTicks = 50 := by
      cases hd
      cases hr
      decide +kernel
    obtain ⟨hends, hrun, hleft, hlast, hticks⟩ := hmore
    refine ⟨d, r, ⟨uneventful, hd⟩, hr, hends, hrun, hleft, hlast, hticks, fun hbooked => ?_⟩
    have hless := hbooked.spent hrun 1 hlast
    rw [hleft] at hless
    exact absurd hless (by decide +kernel)

end Gameroom.Room
