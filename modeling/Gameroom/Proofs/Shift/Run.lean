import Gameroom.Proofs.Shift.Firings

/-!
Runs whose clocks show the same times later. Only how far times lie apart matters to a run: wherever
the clock stands, before 1970 or after it, at zero or at a time that is told to be one of a success,
the answers are the same but for the times that they tell, and so are the rooms and what happens at
random.
-/

namespace Gameroom.Room

variable {delay n m : Int} {r r' : Room} {q q' : Request} {qs qs' : List Request}

/-- A time in whole milliseconds at which a clock can be read, and so can one that shows it later:
both are exactly floats, and lie inside the years 1 to 9999. -/
structure Readable (delay n : Int) : Prop where
  exact : Exact n
  exact' : Exact (n + delay)
  years : Timestamp.InYears (floatOfInt n)
  years' : Timestamp.InYears (floatOfInt (n + delay))

theorem Readable.clock (h : Readable delay n) :
    DelayedClock delay (floatOfInt n) (floatOfInt (n + delay)) :=
  ⟨⟨n, rfl, rfl, h.exact, h.exact'⟩, h.years, h.years'⟩

theorem Readable.of_le (hn : n.natAbs ≤ 2 ^ 53) (hn' : (n + delay).natAbs ≤ 2 ^ 53)
    (h : Timestamp.InYears (floatOfInt n)) (h' : Timestamp.InYears (floatOfInt (n + delay))) :
    Readable delay n := ⟨.of_le hn, .of_le hn', h, h'⟩

/-- The same request, which tells all times later. Before it the clock shows a first time, and after
it a last one. -/
inductive Request.Delayed (delay : Int) : Int → Request → Request → Int → Prop
  | setClock {n m : Int} {ms ms' : Json} (hms : ms.Shows m) (hms' : ms'.Shows (m + delay))
      (hm : Readable delay m) : Delayed delay n (.setClock ms) (.setClock ms') m
  | advanceClock {n k : Int} {ms : Json} (hms : ms.Shows k) (hm : Readable delay (n + k)) :
      Delayed delay n (.advanceClock ms) (.advanceClock ms) (n + k)
  | setCooldown {n : Int} (action player : Json) {time time' : Json}
      (htime : DelayedTime delay time time') :
      Delayed delay n (.setCooldown action player time) (.setCooldown action player time') n
  | same {n : Int} {q : Request} (hq : q.tellsTime = false) : Delayed delay n q q n

/-- The same requests, which tell all times later, from a time on that the clock shows. -/
inductive DelayedRun (delay : Int) : Int → List Request → List Request → Prop
  | nil (n : Int) : DelayedRun delay n [] []
  | cons {n m : Int} {q q' : Request} {qs qs' : List Request} (h : q.Delayed delay n q' m)
      (rest : DelayedRun delay m qs qs') : DelayedRun delay n (q :: qs) (q' :: qs')

/-- The same answers to requests, with times that lie later where they tell any. -/
inductive DelayedAnswers (delay : Int) :
    List Request → List (Except Fault Answer) → List (Except Fault Answer) → Prop
  | nil : DelayedAnswers delay [] [] []
  | cons {q : Request} {qs : List Request} {a a' : Except Fault Answer}
      {as as' : List (Except Fault Answer)} (h : Answered (Answer.Delayed delay q) a a')
      (rest : DelayedAnswers delay qs as as') :
      DelayedAnswers delay (q :: qs) (a :: as) (a' :: as')

/-- The same room, when its clock shows a time and when it shows it later. -/
structure DelayedAt (delay n : Int) (r r' : Room) : Prop where
  delayed : Delayed delay r r'
  clock : r.clock = floatOfInt n
  clock' : r'.clock = floatOfInt (n + delay)

/-! ### The clock -/

theorem clock_kept (hq : q.setsClock = false) (r : Room) :
    ((perform q).outcome r).2.clock = r.clock :=
  (perform_moves q r hq).keeps (P := fun r' => r'.clock = r.clock)
    (fun _ _ _ _ step h => step.clock.trans h) rfl

theorem addedTo_shown {ms : Json} {k : Int} (hn : Exact n) (hms : ms.Shows k) :
    Json.addedTo (floatOfInt n) ms = .ok (floatOfInt (n + k)) := by
  obtain ⟨hk, w, rfl, hw⟩ := hms
  simp only [Json.addedTo, Json.asNumber?, hw, Functor.map, Except.map, hn.add hk]

theorem DelayedAt.keeps (h : DelayedAt delay n r r') (hq : q.setsClock = false)
    (hq' : q'.setsClock = false)
    (hd : Delayed delay ((perform q).outcome r).2 ((perform q').outcome r').2) :
    DelayedAt delay n ((perform q).outcome r).2 ((perform q').outcome r').2 :=
  ⟨hd, (clock_kept hq r).trans h.clock, (clock_kept hq' r').trans h.clock'⟩

theorem setsClock_of_tellsTime (hq : q.tellsTime = false) : q.setsClock = false := by
  cases q with
  | advanceClock | setClock => cases hq
  | _ => rfl

/-! ### Runs -/

theorem perform_delayed (h : DelayedAt delay n r r') (hn : Readable delay n)
    (hq : q.Delayed delay n q' m) :
    Readable delay m ∧
      Answered (Answer.Delayed delay q) ((perform q).outcome r).1 ((perform q').outcome r').1 ∧
      DelayedAt delay m ((perform q).outcome r).2 ((perform q').outcome r').2 := by
  obtain ⟨hdelayed, hclock, hclock'⟩ := h
  cases hq with
  | setClock hms hms' hm =>
    rw [Task.outcome_ok (setClock_ok hms.toFloat r), Task.outcome_ok (setClock_ok hms'.toFloat r')]
    exact ⟨hm, .ok rfl, hdelayed.withClock hm.clock, rfl, rfl⟩
  | advanceClock hms hm =>
    have hx := addedTo_shown hn.exact hms
    have hy := addedTo_shown hn.exact' hms
    rw [add_right_comm, ← hclock'] at hy
    rw [← hclock] at hx
    rw [Task.outcome_ok (advanceClock_ok hx), Task.outcome_ok (advanceClock_ok hy)]
    exact ⟨hm, .ok ⟨_, _, hm.clock.later, rfl, rfl⟩, hdelayed.withClock hm.clock, rfl, rfl⟩
  | setCooldown action player htime =>
    have hagree := setCooldown_agree hdelayed action player fun _ => htime.given _ _
    exact ⟨hn, hagree.outcome.1,
      DelayedAt.keeps ⟨hdelayed, hclock, hclock'⟩ rfl rfl hagree.outcome.2⟩
  -- Every other request is asked alike and leaves the clock.
  | same hq =>
    have hagree := perform_agree hdelayed _ hq
    have hkept := setsClock_of_tellsTime hq
    exact ⟨hn, hagree.outcome.1,
      DelayedAt.keeps ⟨hdelayed, hclock, hclock'⟩ hkept hkept hagree.outcome.2⟩

theorem Request.Delayed.ticksOn (hq : q.Delayed delay n q' m) (h : Room.Delayed delay r r') :
    List.Forall₂ (Room.Delayed delay) (Room.ticksOn q r) (Room.ticksOn q' r') := by
  cases hq with
  | setClock | advanceClock | setCooldown => exact .nil
  | same => exact ticksOn_delayed h q

theorem run_delayed (h : DelayedAt delay n r r') (hn : Readable delay n)
    (hqs : DelayedRun delay n qs qs') :
    DelayedAnswers delay qs (run qs r).1 (run qs' r').1 ∧
      Delayed delay (run qs r).2 (run qs' r').2 ∧
      List.Forall₂ (Delayed delay) (ticksOver qs r) (ticksOver qs' r') := by
  induction hqs generalizing r r' with
  | nil => exact ⟨.nil, h.delayed, .nil⟩
  | cons hq _ ih =>
    obtain ⟨hm, hanswer, hnext⟩ := perform_delayed h hn hq
    obtain ⟨hanswers, hend, hticks⟩ := ih hnext hm
    exact ⟨.cons hanswer hanswers, hend, List.rel_append (hq.ticksOn h.delayed) hticks⟩

/-- What comes of making a room and of all requests to it depends on how far the times that the
clock shows and that are told lie apart, and not on where they lie. Any number of whole milliseconds
later, or earlier if the number is negative, they give the same fault, or the same answers, the same
random events and the same room in the end, but for times that lie as much later. -/
theorem clock_differences_only (hn : Readable delay n) (hqs : DelayedRun delay n qs qs')
    (d : Definition) (o : Options) :
    Answered
      (fun r r' => DelayedAnswers delay qs (run qs r).1 (run qs' r').1 ∧
        Delayed delay (run qs r).2 (run qs' r').2 ∧
        List.Forall₂ (Firing.Delayed delay) (firingsOver qs r) (firingsOver qs' r'))
      (create d { o with clock := floatOfInt n })
      (create d { o with clock := floatOfInt (n + delay) }) := by
  have hcreated := create_delayed d { o with clock := floatOfInt n } hn.clock
  dsimp only at hcreated
  generalize create d { o with clock := floatOfInt n } = x,
    create d { o with clock := floatOfInt (n + delay) } = x' at hcreated ⊢
  cases hcreated with
  | error fault => exact .error fault
  | ok h =>
    obtain ⟨hanswers, hend, hticks⟩ := run_delayed ⟨h.1, h.2.1, h.2.2⟩ hn hqs
    exact .ok ⟨hanswers, hend, firingsOver_delayed hticks⟩

/-- A player comes and acts, and acts again before the action has rested. Then a later success is
told, and how long the action rests from it is asked. -/
def restless (start : Int) : List Request :=
  [.addPlayer (.object []), .act (.text "rest") (.text (playerId 1)) .null,
    .advanceClock (.int 500), .act (.text "rest") (.text (playerId 1)) .null,
    .setCooldown (.text "rest") (.text (playerId 1)) (.int (start + 500)),
    .setClock (.int (start + 900)), .cooldownStatus (.text "rest") (.text (playerId 1))]

theorem clock_differences_only_resting :
    ∃ d r r', d.Parsed ∧ create d { Options.still with clock := floatOfInt 500 } = .ok r ∧
      create d { Options.still with clock := floatOfInt (500 + -1000) } = .ok r' ∧
      (run (restless 500) r).2.history.toList.map Execution.succeeded = [true, false] ∧
      ((run (restless (-500)) r').2.cooldowns.last? (playerId 1) "rest").bind Json.asNumber? =
        some (.int 0) ∧
      DelayedAnswers (-1000) (restless 500) (run (restless 500) r).1 (run (restless (-500)) r').1 ∧
      Delayed (-1000) (run (restless 500) r).2 (run (restless (-500)) r').2 := by
  have hfirst : Readable (-1000) 500 :=
    .of_le (by decide) (by decide) (by decide +kernel) (by decide +kernel)
  have hsoon : Readable (-1000) 1000 :=
    .of_le (by decide) (by decide) (by decide +kernel) (by decide +kernel)
  have hlast : Readable (-1000) 1400 :=
    .of_le (by decide) (by decide) (by decide +kernel) (by decide +kernel)
  have hqs : DelayedRun (-1000) 500 (restless 500) (restless (-500)) :=
    .cons (.same rfl) <| .cons (.same rfl) <|
    .cons (.advanceClock (Exact.of_le (by decide)).shows hsoon) <| .cons (.same rfl) <|
    .cons (.setCooldown _ _ ⟨1000, hsoon.exact.shows, hsoon.exact'.shows⟩) <|
    .cons (.setClock hlast.exact.shows hlast.exact'.shows hlast) <| .cons (.same rfl) <| .nil _
  obtain ⟨d, hd⟩ : ∃ d, Definition.ofFields (resting 1000) = .ok d := ⟨_, rfl⟩
  obtain ⟨r, hr⟩ : ∃ r, create d { Options.still with clock := floatOfInt 500 } = .ok r := by
    cases hd
    exact ⟨_, rfl⟩
  obtain ⟨r', hr'⟩ : ∃ r', create d { Options.still with clock := floatOfInt (500 + -1000) } =
      .ok r' := by
    cases hd
    exact ⟨_, rfl⟩
  have h := clock_differences_only hfirst hqs d .still
  rw [hr, hr'] at h
  obtain ⟨hanswers, hend, -⟩ : _ ∧ _ ∧ _ := by
    cases h with
    | ok h => exact h
  refine ⟨d, r, r', ⟨resting 1000, hd⟩, hr, hr', ?_, ?_, hanswers, hend⟩
  · cases hd
    cases hr
    decide +kernel
  · cases hd
    cases hr'
    decide +kernel

end Gameroom.Room
