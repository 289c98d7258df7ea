import Gameroom.Proofs.Room.Calm
import Gameroom.Proofs.State.Typed

/-! The rooms at which ticks begin, one after the other, and what happens between the ticks. -/

namespace Gameroom.Room

def ticksFrom : Nat → Room → List Room
  | 0, _ => []
  | n + 1, r => r :: ticksFrom n r.tick

/-- The rooms at which ticks begin while time is spent. -/
def ticksSpent : Nat → Room → List Room
  | 0, _ => []
  | fuel + 1, r =>
    if r.loop.timestep ≤ r.loop.accumulator ∧ r.loop.running then r :: ticksSpent fuel r.spendOne
    else []

/-- The rooms at which the ticks of a frame begin. -/
def ticksFramed (r : Room) : List Room :=
  if r.loop.running then
    match r.loop.elapsed >>= Json.toFloat with
    | .error _ => []
    | .ok x => ticksSpent (r.afterTime x).loop.ticksWithin (r.afterTime x)
  else []

/-- The rooms at which ticks begin while the host clock moves on. -/
def ticksHosted (ms : Json) (r : Room) : List Room :=
  match Json.addedTo r.loop.host ms with
  | .error _ => []
  | .ok host =>
    if r.threaded && r.loop.running then ticksFramed { r with loop := { r.loop with host } } else []

/-- The rooms at which the ticks of a request begin. -/
def ticksOn (q : Request) (r : Room) : List Room :=
  match q with
  | .forceTick => [r]
  | .forceTicks count => ticksFrom count r
  | .frame => ticksFramed r
  | .advanceHost ms => ticksHosted ms r
  | _ => []

/-- The rooms at which the ticks of requests begin. -/
def ticksOver : List Request → Room → List Room
  | [], _ => []
  | q :: qs, r => ticksOn q r ++ ticksOver qs ((perform q).outcome r).2

/-- One room leads to another by ticks that begin at some rooms, and what happens between them is in
a relation. -/
inductive Beats (Q : Room → Room → Prop) : List Room → Room → Room → Prop
  | refl (r : Room) : Beats Q [] r r
  | still {bs : List Room} {r r' r'' : Room} (h : Q r r') (rest : Beats Q bs r' r'') :
      Beats Q bs r r''
  | tick {bs : List Room} {r r' : Room} (rest : Beats Q bs r.tick r') : Beats Q (r :: bs) r r'

namespace Beats
variable {Q : Room → Room → Prop} {bs bs' : List Room} {r r' r'' : Room}

theorem append (h : Beats Q bs r r') (h' : Beats Q bs' r' r'') : Beats Q (bs ++ bs') r r'' := by
  induction h with
  | refl => exact h'
  | still hstill _ ih => exact .still hstill (ih h')
  | tick _ ih => exact .tick (ih h')

theorem of_still (h : Q r r') : Beats Q [] r r' := .still h (.refl r')

theorem one (r : Room) : Beats Q [r] r r.tick := .tick (.refl r.tick)

theorem keeps {P : Room → Prop} (hstill : ∀ r r', Q r r' → P r → P r')
    (htick : ∀ r, P r → P r.tick) (h : Beats Q bs r r') (hr : P r) :
    (∀ b ∈ bs, P b) ∧ P r' := by
  induction h with
  | refl => exact ⟨by simp, hr⟩
  | still h _ ih => exact ih (hstill _ _ h hr)
  | tick _ ih =>
    obtain ⟨hbs, hend⟩ := ih (htick _ hr)
    exact ⟨List.forall_mem_cons.2 ⟨hr, hbs⟩, hend⟩

/-- What ticks emit makes a chain, if the part of the room that it is about does not change between
the ticks. -/
theorem chain {ι σ : Type} {Step : ι → σ → σ → Prop} {emits : Room → List ι} (part : Room → σ)
    (hstill : ∀ r r', Q r r' → part r' = part r) (h : Beats Q bs r r')
    (htick : ∀ b ∈ bs, Chain Step (emits b) (part b) (part b.tick)) :
    Chain Step (bs.flatMap emits) (part r) (part r') := by
  induction h with
  | refl r => exact .nil (part r)
  | still h _ ih =>
    rw [← hstill _ _ h]
    exact ih htick
  | tick _ ih =>
    rw [List.forall_mem_cons] at htick
    exact htick.1.append (ih htick.2)

theorem of_nil [IsPreorder Room Q] (h : Beats Q [] r r') : Q r r' := by
  generalize hnone : ([] : List Room) = bs at h
  induction h with
  | refl r => exact refl_of Q r
  | still h _ ih => exact trans_of Q h (ih hnone)
  | tick => cases hnone

/-- If ticks and what happens between them lead on in some sense, every room at which a tick begins
comes later in this sense than the ones before it. -/
theorem ordered {R : Room → Room → Prop} [IsPreorder Room R] (hstill : ∀ r r', Q r r' → R r r')
    (htick : ∀ r, R r r.tick) (h : Beats Q bs r r') : (∀ b ∈ bs, R r b) ∧ bs.Pairwise R := by
  induction h with
  | refl => exact ⟨by simp, .nil⟩
  | still h _ ih =>
    have hstep := hstill _ _ h
    exact ⟨fun b hb => trans_of R hstep (ih.1 b hb), ih.2⟩
  | @tick bs r r' _ ih =>
    have hlater : ∀ b ∈ bs, R r b := fun b hb => trans_of R (htick r) (ih.1 b hb)
    exact ⟨List.forall_mem_cons.2 ⟨refl_of R r, hlater⟩, .cons hlater ih.2⟩

end Beats

variable {Q : Room → Room → Prop}

/-! ### The number of a tick -/

theorem tick_number (r : Room) : r.tick.state.tick = r.state.tick + 1 :=
  (tick_passes r).ages.state.tick

theorem Beats.le_number {bs : List Room} {r r' : Room}
    (hle : ∀ r r', Q r r' → r.state.tick ≤ r'.state.tick) (h : Beats Q bs r r') :
    ∀ b ∈ bs, r.state.tick ≤ b.state.tick := by
  refine (h.keeps (P := fun b => r.state.tick ≤ b.state.tick)
    (fun _ _ hstill hr => hr.trans (hle _ _ hstill)) (fun b hb => ?_) le_rfl).1
  rw [tick_number]
  exact hb.trans (Nat.le_succ _)

theorem Beats.numbers {bs : List Room} {r r' : Room}
    (hle : ∀ r r', Q r r' → r.state.tick ≤ r'.state.tick) (h : Beats Q bs r r') :
    bs.Pairwise fun b b' => b.state.tick < b'.state.tick := by
  induction h with
  | refl => exact .nil
  | still _ _ ih => exact ih
  | @tick bs r r' rest ih =>
    refine .cons (fun b hb => ?_) ih
    have hb := rest.le_number hle b hb
    rwa [tick_number] at hb

/-! ### Requests -/

theorem ticksFrom_beats (n : Nat) (r : Room) : Beats Q (ticksFrom n r) r (ticks n r) := by
  induction n generalizing r with
  | zero => exact .refl r
  | succ n ih => exact .tick (ih r.tick)

/-- A room that reckons time anew. -/
def timed (host accumulator lastTime : Float) (r : Room) : Room :=
  { r with loop := { r.loop with host, accumulator, lastTime } }

theorem ticksSpent_beats (htimed : ∀ host x y r, Q r (timed host x y r)) (fuel count : Nat)
    (r : Room) : Beats Q (ticksSpent fuel r) r (spend fuel count r).2 := by
  induction fuel generalizing count r with
  | zero => exact .refl r
  | succ fuel ih =>
    rw [spend_succ, ticksSpent]
    split_ifs
    · have hpaid : Q r.tick r.spendOne := htimed r.tick.loop.host _ r.tick.loop.lastTime r.tick
      exact .tick (.still hpaid (ih _ _))
    · exact .refl r

/-- A frame begins and spends the time that it counts, unless its time cannot be told. -/
theorem frame_begun {r : Room} {x : Float} (hrun : r.loop.running)
    (h : (r.loop.elapsed >>= Json.toFloat) = .ok x) :
    frame r = .ok (spend (r.afterTime x).loop.ticksWithin 0 (r.afterTime x)).1
      (spend (r.afterTime x).loop.ticksWithin 0 (r.afterTime x)).2 := by
  obtain ⟨e, he, hx⟩ := ok_of_bind h
  rw [frame_running hrun]
  simp only [he, hx]

theorem frame_untold {r : Room} {fault : Fault} (hrun : r.loop.running)
    (h : (r.loop.elapsed >>= Json.toFloat) = .error fault) :
    ∃ x, frame r = .error fault (timed r.loop.host r.loop.accumulator x r) := by
  rw [frame_running hrun]
  cases he : r.loop.elapsed with
  | error fault' =>
    rw [he] at h
    cases h
    exact ⟨r.loop.lastTime, rfl⟩
  | ok e =>
    rw [he] at h
    change e.toFloat = .error fault at h
    dsimp only
    rw [h]
    exact ⟨_, rfl⟩

theorem ticksFramed_beats (htimed : ∀ host x y r, Q r (timed host x y r)) (r : Room) :
    Beats Q (ticksFramed r) r (frame.outcome r).2 := by
  unfold ticksFramed
  split_ifs with hrun
  · cases h : r.loop.elapsed >>= Json.toFloat with
    | error fault =>
      obtain ⟨x, hx⟩ := frame_untold hrun h
      rw [Task.outcome_error hx]
      exact .of_still (htimed _ _ x r)
    | ok x =>
      rw [Task.outcome_ok (frame_begun hrun h)]
      have htime : Q r (r.afterTime x) := htimed r.loop.host _ _ r
      exact .still htime (ticksSpent_beats htimed _ 0 _)
  · rw [Task.outcome_ok (frame_stopped (by simpa using hrun))]
    exact .refl r

theorem ticksHosted_beats (htimed : ∀ host x y r, Q r (timed host x y r)) (ms : Json) (r : Room) :
    Beats Q (ticksHosted ms r) r ((advanceHost ms).outcome r).2 := by
  unfold ticksHosted
  cases hhost : Json.addedTo r.loop.host ms with
  | error fault =>
    rw [advanceHost_error hhost]
    exact .refl r
  | ok host =>
    have hmoved : Q r { r with loop := { r.loop with host } } :=
      htimed host r.loop.accumulator r.loop.lastTime r
    rw [advanceHost_ok hhost]
    dsimp only
    split_ifs
    · exact .still hmoved (ticksFramed_beats htimed _)
    · exact .of_still hmoved

/-- Whether a request reaches what ticks read and write by other ways than a tick: it sets the
clock, makes the state anew or makes the room forget. -/
def Request.reaches (q : Request) : Bool := q.setsClock || q.restarts || q.forgets

/-- A state that is made anew takes the recent actions with it, unless a fault stops it. -/
theorem renew_leaves (r : Room) : ∃ state source recent, r.source.SameGiven source ∧
    (recent = r.recent ∨ recent = #[]) ∧
    ((perform .renew).outcome r).2 = { r with state, source, recent } := by
  have hend : ((perform .renew).outcome r).2 = (renew.outcome r).2 :=
    outcome_bind_pure renew (fun _ => Answer.null) r
  have hgiven := State.initial_given (d := r.definition) r.clock r.source
  rw [hend]
  cases hs : State.initial r.definition r.clock r.source with
  | error fault source =>
    rw [Task.Moves, Task.outcome_error hs] at hgiven
    rw [Task.outcome_error (renew_error hs)]
    exact ⟨r.state, source, r.recent, hgiven, .inl rfl, rfl⟩
  | ok s source =>
    rw [Task.Moves, Task.outcome_ok hs] at hgiven
    rw [Task.outcome_ok (renew_ok hs)]
    exact ⟨s, source, #[], hgiven, .inr rfl, rfl⟩

/-- As long as nothing is forgotten, only the clock is set, or the state is made anew. -/
theorem reaches_leaves {q : Request} (hreaches : q.reaches) (hforgets : q.forgets = false)
    (r : Room) : ∃ clock state source recent, r.source.SameGiven source ∧
      ((perform q).outcome r).2 = { r with clock, state, source, recent } := by
  by_cases hclock : q.setsClock
  · obtain ⟨clock, h⟩ := perform_clock q r hclock
    exact ⟨clock, r.state, r.source, r.recent, rfl, h⟩
  · cases q with
    | renew =>
      obtain ⟨state, source, recent, hgiven, -, h⟩ := renew_leaves r
      exact ⟨r.clock, state, source, recent, hgiven, h⟩
    | advanceClock | setClock => exact absurd rfl hclock
    | reset | destroy | close | resetTracking => cases hforgets
    | _ => cases hreaches

theorem setTimestep_calm (ms : Json) (r : Room) : (perform (.setTimestep ms)).Moves Calm r :=
  (Task.moves_look _ r).bind fun _ r₁ _ => alter_moves (withLoop_calm r₁ _)

def Request.beats : Request → Bool
  | .advanceHost _ | .frame | .forceTick | .forceTicks _ => true
  | _ => false

theorem perform_timed (htimed : ∀ host x y r, Q r (timed host x y r)) {q : Request} {r : Room}
    (hquiet : q.beats = false → Q r ((perform q).outcome r).2) :
    Beats Q (ticksOn q r) r ((perform q).outcome r).2 := by
  cases hbeats : q.beats with
  | false =>
    have hnone : ticksOn q r = [] := by
      cases q <;> first | rfl | cases hbeats
    rw [hnone]
    exact .of_still (hquiet hbeats)
  | true =>
    cases q with
    | advanceHost ms =>
      rw [perform, outcome_bind_pure]
      exact ticksHosted_beats htimed ms r
    | frame =>
      rw [perform, outcome_bind_pure]
      exact ticksFramed_beats htimed r
    | forceTick => exact .one r
    | forceTicks count =>
      rw [forceTicks_end]
      exact ticksFrom_beats count r
    | _ => cases hbeats

/-- Everything that a request does is ticks, and between them nothing that ticks read or write but
the state of play. -/
theorem perform_beats (hcalm : ∀ r r', Calm r r' → Q r r') {q : Request} {r : Room}
    (hreaches : q.reaches → Q r ((perform q).outcome r).2) :
    Beats Q (ticksOn q r) r ((perform q).outcome r).2 := by
  refine perform_timed (fun _ _ _ r => hcalm _ _ (withLoop_calm r _)) fun hbeats => ?_
  by_cases hstill : q.isStill
  · exact hcalm _ _ (perform_still hstill r).toCalm
  cases q with
  | advanceHost | frame | forceTick | forceTicks => cases hbeats
  | start | resume => exact hcalm _ _ (start_calm r)
  | setTimestep ms => exact hcalm _ _ (setTimestep_calm ms r)
  | advanceClock | setClock | renew | reset | destroy | close | resetTracking => exact hreaches rfl
  | _ => exact absurd rfl hstill

theorem run_of_perform {qs : List Request}
    (hqs : ∀ q ∈ qs, ∀ r, Beats Q (ticksOn q r) r ((perform q).outcome r).2) (r : Room) :
    Beats Q (ticksOver qs r) r (run qs r).2 := by
  induction qs generalizing r with
  | nil => exact .refl r
  | cons q qs ih =>
    rw [List.forall_mem_cons] at hqs
    exact (hqs.1 r).append (ih hqs.2 _)

theorem run_beats (hcalm : ∀ r r', Calm r r' → Q r r') {qs : List Request}
    (hreaches : ∀ q ∈ qs, q.reaches → ∀ r, Q r ((perform q).outcome r).2) (r : Room) :
    Beats Q (ticksOver qs r) r (run qs r).2 :=
  run_of_perform (fun q hq r => perform_beats hcalm fun h => hreaches q hq h r) r

end Gameroom.Room
