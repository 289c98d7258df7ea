import Gameroom.Proofs.Definition.Parsed
import Gameroom.Proofs.Effect.Local
import Gameroom.Proofs.Room.Players

/-!
What a room gathers until its state is made anew: its feed, its log and the players' lists of
actions only grow, ticks are counted one by one, and the end of a game is final.
-/

namespace Gameroom

namespace Player

/-- Whoever is in the second table is in the first, with a list of actions that the second goes on
with. -/
def Gathers (t t' : Table Player) : Prop := ∀ id p', t'.get? id = some p' →
  ∃ p, t.get? id = some p ∧ p.actions.toList <+: p'.actions.toList

theorem Gathers.refl (t : Table Player) : Gathers t t := fun _ p' h => ⟨p', h, List.prefix_rfl⟩

theorem Gathers.trans {t t' t'' : Table Player} (h : Gathers t t') (h' : Gathers t' t'') :
    Gathers t t'' := by
  intro id p'' hp''
  obtain ⟨p', hp', hlist'⟩ := h' id p'' hp''
  obtain ⟨p, hp, hlist⟩ := h id p' hp'
  exact ⟨p, hp, hlist.trans hlist'⟩

theorem gathers_of_eq {t t' : Table Player} (h : t' = t) : Gathers t t' := h ▸ .refl t

theorem gathers_drop (t : Table Player) (id : String) : Gathers t (t.drop id) := by
  intro other p' hp'
  rw [Table.get?_drop] at hp'
  split_ifs at hp'
  exact ⟨p', hp', List.prefix_rfl⟩

theorem gathers_put {t : Table Player} {id : String} {p p' : Player} (hp : t.get? id = some p)
    (h : p.actions.toList <+: p'.actions.toList) : Gathers t (t.put id p') := by
  intro other q hq
  rw [Table.get?_put] at hq
  split_ifs at hq with hother
  · cases hq
    exact ⟨p, hother ▸ hp, h⟩
  · exact ⟨q, hq, List.prefix_rfl⟩

end Player

namespace State
variable {d : Definition}

/-- A state of play later on, with so many ticks counted. -/
structure Ages (n : Nat) (s s' : State) : Prop where
  tick : s'.tick = s.tick + n
  finished : s.status = .finished → s'.status = .finished
  events : s.events.toList <+: s'.events.toList
  logs : s.logs.toList <+: s'.logs.toList

theorem Ages.trans {n m : Nat} {s s' s'' : State} (h : Ages n s s') (h' : Ages m s' s'') :
    Ages (n + m) s s'' where
  tick := by rw [h'.tick, h.tick, Nat.add_assoc]
  finished := fun hs => h'.finished (h.finished hs)
  events := h.events.trans h'.events
  logs := h.logs.trans h'.logs

def course (s : State) : Nat × Status × Array Event × Array Json :=
  (s.tick, s.status, s.events, s.logs)

theorem ages_of_course {s s' : State} (h : s'.course = s.course) : Ages 0 s s' := by
  obtain ⟨htick, hstatus, hevents, hlogs⟩ : s'.tick = s.tick ∧ s'.status = s.status ∧
      s'.events = s.events ∧ s'.logs = s.logs := by simpa [course] using h
  exact ⟨htick, fun hs => hstatus.trans hs, hevents ▸ List.prefix_rfl, hlogs ▸ List.prefix_rfl⟩

theorem changes_age {e : Effect} {s s' : State} (h : e.Changes d s s') : Ages 0 s s' := by
  cases h with
  | setVar h | modifyVar h =>
    obtain ⟨v, n, -, rfl⟩ := setVariable_ok h
    exact ages_of_course rfl
  | @setEntity target entity properties _ h =>
    exact ages_of_course (congrArg course (setProperties_same entity properties s).frame :)
  | triggerEvent | message | updateScore => exact ages_of_course rfl
  | addLog line => exact ⟨rfl, id, List.prefix_rfl, by simp [addLog]⟩
  | addEvent h =>
    obtain ⟨timestamp, -, h⟩ := ok_of_bind h
    cases h
    exact ⟨rfl, id, by simp, List.prefix_rfl⟩
  | @setStatus _ next _ _ hpermits =>
    refine ⟨rfl, fun hs => ?_, List.prefix_rfl, List.prefix_rfl⟩
    rw [hs] at hpermits
    simpa [Status.permits] using hpermits

theorem Change.ages {s s' : State} (h : Change d s s') : Ages 0 s s' := by
  cases h with
  | effect h => exact changes_age h
  | _ => exact ages_of_course rfl

theorem changes_gather {e : Effect} {s s' : State} (h : e.Changes d s s') :
    Player.Gathers s.players s'.players := by
  cases h with
  | setVar h | modifyVar h =>
    obtain ⟨v, n, -, rfl⟩ := setVariable_ok h
    exact .refl _
  | @setEntity target entity properties _ h =>
    exact Player.gathers_of_eq (congrArg players (setProperties_same entity properties s).frame :)
  | @updateScore player score id _ h =>
    intro other p' hp'
    rw [(updateScore_same id score s).players other] at hp'
    obtain ⟨p, hp, rfl⟩ := Option.map_eq_some_iff.1 hp'
    refine ⟨p, hp, ?_⟩
    split_ifs <;> exact List.prefix_rfl
  | addEvent h =>
    obtain ⟨timestamp, -, h⟩ := ok_of_bind h
    cases h
    exact .refl _
  | _ => exact .refl _

theorem Change.gathers {s s' : State} (h : Change d s s') (hs : Player.Keyed s.players) :
    Player.Gathers s.players s'.players := by
  cases h with
  | effect h => exact changes_gather h
  | @update id p _ h nickname role score lastSeen =>
    rw [hs id p h]
    exact Player.gathers_put h List.prefix_rfl
  | @list id p _ h action =>
    rw [hs id p h]
    exact Player.gathers_put h (by simp)
  | _ => exact .refl _

theorem Evolves.ages {s s' : State} (h : Evolves d s s') : Ages 0 s s' := by
  induction h with
  | refl => exact ages_of_course rfl
  | tail _ hchange ih => exact ih.trans hchange.ages

theorem Evolves.gathers {s s' : State} (h : Evolves d s s') (hs : Player.Keyed s.players) :
    Player.Gathers s.players s'.players := by
  induction h with
  | refl => exact .refl _
  | tail hbefore hchange ih =>
    have hkeyed := ((Evolves.plays hbefore).same hs).keyed
    exact ih.trans (hchange.gathers hkeyed)

end State

namespace Room

/-- A room later on, with so many ticks counted and its state not made anew. -/
structure Ages (n : Nat) (r r' : Room) : Prop where
  state : State.Ages n r.state r'.state
  /-- In a finished game the loop does not come to run. -/
  rest : r.state.status = .finished → r'.loop.running → r.loop.running
  ids : r.ids ≤ r'.ids
  roster : r.Roster → r'.Roster
  stayed : r.Roster → ∀ id, r.Issued id → ∀ p', r'.state.players.get? id = some p' →
    ∃ p, r.state.players.get? id = some p ∧ p.actions.toList <+: p'.actions.toList

theorem Ages.trans {n m : Nat} {r r' r'' : Room} (h : Ages n r r') (h' : Ages m r' r'') :
    Ages (n + m) r r'' where
  state := h.state.trans h'.state
  rest := fun hs hrun => h.rest hs (h'.rest (h.state.finished hs) hrun)
  ids := h.ids.trans h'.ids
  roster := fun hr => h'.roster (h.roster hr)
  stayed := by
    -- An id that was given out is not given again, so who is there at the end was there midway.
    rintro hr id ⟨k, hk, rfl⟩ p'' hp''
    obtain ⟨p', hp', hlist'⟩ := h'.stayed (h.roster hr) _ ⟨k, hk.trans h.ids, rfl⟩ p'' hp''
    obtain ⟨p, hp, hlist⟩ := h.stayed hr _ ⟨k, hk, rfl⟩ p' hp'
    exact ⟨p, hp, hlist.trans hlist'⟩

variable {r r' : Room}

theorem ages_of_gathers {n : Nat} (hstate : State.Ages n r.state r'.state)
    (hloop : r'.loop.running → r.loop.running) (hgoes : Goes r r')
    (hgathers : Player.Keyed r.state.players →
      Player.Gathers r.state.players r'.state.players) : Ages n r r' where
  state := hstate
  rest := fun _ => hloop
  ids := hgoes.keeps (P := fun r' => r.ids ≤ r'.ids)
    (fun _ _ _ _ step h => h.trans step.ids_le) le_rfl
  roster := fun hr => hr.leads hgoes
  stayed := fun hr id _ => hgathers hr.keyed id

theorem ages_refl (r : Room) : Ages 0 r r :=
  ages_of_gathers (State.ages_of_course rfl) (fun h => h) (.refl r) fun _ => .refl _

theorem Move.ages (h : Move r r') : Ages 0 r r' := by
  have hgoes := h.goes
  cases h with
  | change h => exact ages_of_gathers h.ages (fun h => h) hgoes h.gathers
  | act action player parameters =>
    exact ages_of_gathers process_evolves.ages (fun h => h) hgoes process_evolves.gathers
  | @join p _ hp =>
    refine ⟨State.ages_of_course rfl, fun _ h => h, Nat.le_succ _, fun hr => hr.leads hgoes, ?_⟩
    rintro hr id ⟨n, hn, rfl⟩ p' hp'
    -- The newcomer has an id that was never given out before.
    have hnew : p.id ≠ playerId n := by
      rw [hp]
      intro hsame
      have := playerId_injective hsame
      omega
    rw [Table.get?_put_of_ne _ _ hnew] at hp'
    exact ⟨p', hp', List.prefix_rfl⟩
  | drop id | leave id =>
    exact ages_of_gathers (State.ages_of_course rfl) (fun h => h) hgoes
      fun _ => Player.gathers_drop _ id
  | run h =>
    have hrest (hs : r.state.status = .finished) : r.loop.running := by
      rw [h] at hs
      cases hs
    exact ⟨State.ages_of_course rfl, fun hs _ => hrest hs, le_rfl, fun hr => ⟨hr.keyed, hr.issued⟩,
      fun hr id _ p' hp' => ⟨p', hp', List.prefix_rfl⟩⟩
  | aside h hloop =>
    refine ages_of_gathers (State.ages_of_course (congrArg State.course h.state)) hloop hgoes
      fun _ => ?_
    rw [h.state]
    exact .refl _

theorem counted_ages (r : Room) : Ages 1 r r.counted :=
  ages_of_gathers ⟨rfl, fun h => h, List.prefix_rfl, List.prefix_rfl⟩ (fun h => h)
    (plays_goes (State.Step.plays (.count r.state) trivial)) fun _ => .refl _

theorem Passes.ages {n : Nat} (h : Passes n r r') : Ages n r r' := by
  induction h with
  | refl r => exact ages_refl r
  | @move n _ _ _ hmove _ ih =>
    have h := hmove.ages.trans ih
    rwa [Nat.zero_add] at h
  | @count n r _ _ ih =>
    have h := (counted_ages r).trans ih
    rwa [Nat.add_comm] at h

theorem perform_extraordinary {q : Request} (hq : ¬q.isOrdinary) (hrestart : q.restarts = false)
    (r : Room) : ∃ clock cooldowns history,
      ((perform q).outcome r).2 = { r with clock, cooldowns, history } := by
  cases hclock : q.setsClock with
  | true =>
    obtain ⟨clock, h⟩ := perform_clock q r hclock
    exact ⟨clock, r.cooldowns, r.history, h⟩
  | false =>
    cases hhandles : q.handlesCooldowns with
    | true =>
      obtain ⟨cooldowns, h⟩ := perform_handled hhandles r
      exact ⟨r.clock, cooldowns, r.history, h⟩
    | false =>
      cases q with
      | clearHistory => exact ⟨r.clock, r.cooldowns, #[], rfl⟩
      | _ => simp [Request.isOrdinary, hclock, hrestart, hhandles, Request.clearsHistory] at hq

theorem perform_ages {q : Request} (hq : q.restarts = false) (r : Room) :
    Ages (q.counted r) r ((perform q).outcome r).2 := by
  by_cases hordinary : q.isOrdinary
  · exact (perform_passes q r hordinary).ages
  · have hnone : q.counted r = 0 := by
      cases q <;> first | rfl | exact absurd rfl hordinary
    obtain ⟨clock, cooldowns, history, h⟩ :=
      perform_extraordinary hordinary hq r
    rw [hnone, h]
    exact ⟨State.ages_of_course rfl, fun _ h => h, le_rfl, fun hr => ⟨hr.keyed, hr.issued⟩,
      fun hr id _ p' hp' => ⟨p', hp', List.prefix_rfl⟩⟩

/-- The ticks that requests count, one after the other. -/
def countedOver : List Request → Room → Nat
  | [], _ => 0
  | q :: qs, r => q.counted r + countedOver qs ((perform q).outcome r).2

theorem run_ages {qs : List Request} (hqs : ∀ q ∈ qs, q.restarts = false) (r : Room) :
    Ages (countedOver qs r) r (run qs r).2 := by
  induction qs generalizing r with
  | nil => exact ages_refl r
  | cons q qs ih =>
    have hnext := perform_ages (hqs q List.mem_cons_self) r
    exact hnext.trans (ih (fun q hq => hqs q (List.mem_cons_of_mem _ hq)) _)

/-- A room with the history of an earlier one: a finished game is finished, and feed, log and the
lists of actions of the players who stay have only grown. -/
structure Later (r r' : Room) : Prop where
  finished : r.state.status = .finished → r'.state.status = .finished
  events : r.state.events.toList <+: r'.state.events.toList
  logs : r.state.logs.toList <+: r'.state.logs.toList
  actions : ∀ id p p', r.state.players.get? id = some p → r'.state.players.get? id = some p' →
    p.actions.toList <+: p'.actions.toList

theorem Ages.later {n : Nat} (h : Ages n r r') (hr : r.Roster) : Later r r' := by
  refine ⟨h.state.finished, h.state.events, h.state.logs, fun id p p' hp hp' => ?_⟩
  have hissued : r.Issued id := hr.issued id (by rw [Table.has, hp]; rfl)
  obtain ⟨q, hq, hlist⟩ := h.stayed hr id hissued p' hp'
  rw [hp] at hq
  cases hq
  exact hlist

/-- Whatever is asked of a room that is in play, as long as it is not to start all over: its history
grows at the end, and its ticks are those that were counted. -/
theorem later_after {d : Definition} (hr : InPlay d r) {qs : List Request}
    (hqs : ∀ q ∈ qs, q.restarts = false) :
    Later r (run qs r).2 ∧ (run qs r).2.state.tick = r.state.tick + countedOver qs r := by
  have h := run_ages hqs r
  exact ⟨h.later hr.roster, h.state.tick⟩

def uneventful : Table Json := [("meta", .object []), ("vars", .object [])]

/-- A player asks for an action and the game ends; a start, a tick and a count come too late. -/
def ending : List Request :=
  [.act (.text "wave") (.text (playerId 1)) .null, .addLog (.text "over"), .endGame .null, .start,
    .forceTick, .incrementTick]

theorem later_after_ending :
    ∃ d r, d.Parsed ∧ create d .still = .ok r ∧
      Later (run [.addPlayer (.object [])] r).2
        (run ending (run [.addPlayer (.object [])] r).2).2 ∧
      (run ending (run [.addPlayer (.object [])] r).2).2.state.tick = 2 := by
  obtain ⟨d, hd⟩ : ∃ d, Definition.ofFields uneventful = .ok d := ⟨_, rfl⟩
  obtain ⟨r, hr⟩ : ∃ r, create d .still = .ok r := by
    cases hd
    exact ⟨_, rfl⟩
  have h := later_after ⟨.still, r, [.addPlayer (.object [])], hr, .refl _⟩
    (show ∀ q ∈ ending, q.restarts = false by decide)
  refine ⟨d, r, ⟨uneventful, hd⟩, hr, h.1, h.2.trans ?_⟩
  cases hd
  cases hr
  decide +kernel

end Room
end Gameroom
