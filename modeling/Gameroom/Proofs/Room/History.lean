import Gameroom.Proofs.Room.Growth
import Gameroom.Proofs.Room.Record
import Gameroom.Proofs.State.Asked

/-!
The record of a room is complete: as long as nobody clears it, both histories hold all executions
that were returned, in order, and each player's list the actions that the player asked for since
the player came.
-/

namespace Gameroom.Room

variable {d : Definition} {o : Options} {r r₀ r' : Room} {es : List Execution} {α : Type}

/-! ### Requests that leave the record -/

/-- Whether a request neither clears a part of the record nor closes the room. -/
def Request.keepsRecord : Request → Bool
  | .renew | .reset | .close | .clearHistory | .clearRecent => false
  | _ => true

/-- A room later on: some executions were recorded meanwhile, and nobody came. -/
structure Records (es : List Execution) (r r' : Room) : Prop where
  history : r'.history.toList = r.history.toList ++ es
  recent : r'.recent.toList = r.recent.toList ++ es
  closed : r'.closed = r.closed
  state : State.Asked es r.state r'.state

theorem Played.records (h : Played es r r') : Records es r r' :=
  ⟨h.history, h.recent, h.closed, h.course.asked⟩

theorem records_of_state {s : State} (h : State.Asked [] r.state s) :
    Records [] r { r with state := s } :=
  ⟨(List.append_nil _).symm, (List.append_nil _).symm, rfl, h⟩

instance : IsPreorder Room (Records []) where
  refl r := records_of_state (.refl r.state)
  trans r r' r'' h h' := by
    refine ⟨?_, ?_, h'.closed.trans h.closed, h.state.trans h'.state⟩
    · rw [h'.history, h.history, List.append_assoc]
      rfl
    · rw [h'.recent, h.recent, List.append_assoc]
      rfl

theorem records_of_same (hhistory : r'.history = r.history) (hrecent : r'.recent = r.recent)
    (hclosed : r'.closed = r.closed) (hstate : r'.state = r.state) : Records [] r r' := by
  refine ⟨?_, ?_, hclosed, hstate ▸ .refl r.state⟩
  · rw [hhistory, List.append_nil]
  · rw [hrecent, List.append_nil]

theorem Edited.records (h : Edited r r') : Records [] r r' := by
  obtain ⟨s, hs, rfl⟩ := h
  exact records_of_state hs.asked

theorem Idle.records (h : Idle r r') : Records [] r r' :=
  records_of_same h.aside.history h.recent h.closed h.aside.state

theorem dropPlayer_records (id : Json) (r : Room) :
    (change (State.removePlayer id)).Moves (Records []) r :=
  Task.moves_modifyGet (records_of_state (State.removePlayer_asked id r.state))

theorem removePlayer_records (id : Json) (r : Room) :
    (removePlayer id).Moves (Records []) r := by
  refine (dropPlayer_records id r).bind fun removed r₁ _ => ?_
  split
  · exact Task.Moves.bind (Task.moves_modify (records_of_same rfl rfl rfl rfl)) fun _ r₂ _ =>
      Task.moves_pure _ r₂
  · exact Task.moves_pure _ r₁

theorem destroy_records (r : Room) : Records [] r r.destroy := by
  have hquiet : Records [] r.stop r.destroy := records_of_same rfl rfl rfl rfl
  exact trans_of (Records []) (stop_played r).records hquiet

theorem perform_silent {q : Request} (hq : q.keepsRecord) (hjoin : ∀ data, q ≠ .addPlayer data)
    (hsilent : q.isCourse = false) (r : Room) : (perform q).Moves (Records []) r := by
  cases q.aim with
  | looks hidle | setsUp hidle => exact (perform_idle hidle r).records
  | edits hedits => exact (perform_edited hedits r).records
  | course hcourse => exact absurd hcourse (Bool.eq_false_iff.1 hsilent)
  | clock hclock =>
    obtain ⟨clock, h⟩ := perform_clock q r hclock
    rw [Task.Moves, h]
    exact records_of_same rfl rfl rfl rfl
  | cooldowns hhandles =>
    obtain ⟨cooldowns, h⟩ := perform_handled hhandles r
    rw [Task.Moves, h]
    exact records_of_same rfl rfl rfl rfl
  | join data => exact absurd rfl (hjoin data)
  | leave id => exact answered (removePlayer_records id r)
  | drop id => exact answered (dropPlayer_records id r)
  | destroy => exact alter_moves (destroy_records r)
  | count => exact records_of_state (State.asked_of_players rfl rfl)
  | renew | reset | close | clearHistory | clearRecent => cases hq

/-- Whatever is asked of a room without clearing the record: if nobody comes, it records what it
returns and nothing else. -/
theorem perform_records {q : Request} (hq : q.keepsRecord) (hjoin : ∀ data, q ≠ .addPlayer data)
    (r : Room) : Records (returned q r) r ((perform q).outcome r).2 := by
  cases hcourse : q.isCourse with
  | true => exact (perform_played hcourse r).records
  | false =>
    have hnone : returned q r = [] := by
      cases q <;> first | rfl | cases hcourse
    rw [hnone]
    exact perform_silent hq hjoin hcourse r

/-! ### Who comes -/

/-- On a request a player comes: the answer shows the id, and no actions yet. -/
def Comes (data : Json) (id : String) (r : Room) : Prop :=
  ∃ p : Player, p.id = id ∧ p.actions = #[] ∧
    ((perform (.addPlayer data)).outcome r).1 = .ok (.document p.toJson)

/-- On one of several requests a player came, and these actions the player asked for since. -/
def ListedSince (qs : List Request) (id : String) (actions : List Json) (r : Room) : Prop :=
  ∃ before data after, qs = before ++ .addPlayer data :: after ∧ Comes data id (run before r).2 ∧
    actions = actionsOf id (returnedOver after (run (before ++ [.addPlayer data]) r).2)

theorem ListedSince.cons {q : Request} {qs : List Request} {id : String} {actions : List Json}
    (h : ListedSince qs id actions ((perform q).outcome r).2) :
    ListedSince (q :: qs) id actions r := by
  obtain ⟨before, data, after, rfl, hcomes, hactions⟩ := h
  exact ⟨q :: before, data, after, rfl, hcomes, hactions⟩

/-! ### Requests one after the other -/

/-- The record goes on with what requests return. Whoever is there at the end was there before or
has come. -/
structure Continues (qs : List Request) (r r' : Room) : Prop where
  history : r'.history.toList = r.history.toList ++ returnedOver qs r
  recent : r'.recent.toList = r.recent.toList ++ returnedOver qs r
  closed : r'.closed = r.closed
  last : r'.state.last = (returnedOver qs r).foldl Execution.follow r.state.last
  lists : Player.Keyed r.state.players → ∀ id p', r'.state.players.get? id = some p' →
    (∃ p, r.state.players.get? id = some p ∧
      p'.actions.toList = p.actions.toList ++ actionsOf id (returnedOver qs r)) ∨
    ListedSince qs id p'.actions.toList r

theorem Continues.cons {q : Request} {qs : List Request} {r' : Room} (hq : q.keepsRecord)
    (h : Continues qs ((perform q).outcome r).2 r') : Continues (q :: qs) r r' := by
  have hrecords (hr : Records (returned q r) r ((perform q).outcome r).2) :
      Continues (q :: qs) r r' := by
    refine ⟨?_, ?_, h.closed.trans hr.closed, ?_, fun hkeyed id p' hp' => ?_⟩
    · rw [h.history, hr.history, List.append_assoc, returnedOver]
    · rw [h.recent, hr.recent, List.append_assoc, returnedOver]
    · rw [h.last, hr.state.last, returnedOver, List.foldl_append]
    · rcases h.lists (hr.state.keyed hkeyed) id p' hp' with ⟨p₁, hp₁, hlist⟩ | hsince
      · obtain ⟨p, hp, hlist₁⟩ := hr.state.lists hkeyed id p₁ hp₁
        refine .inl ⟨p, hp, ?_⟩
        rw [hlist, hlist₁, returnedOver, actionsOf_append, List.append_assoc]
      · exact .inr hsince.cons
  by_cases hjoin : ∀ data, q ≠ .addPlayer data
  · exact hrecords (perform_records hq hjoin r)
  · simp only [not_forall, not_not] at hjoin
    obtain ⟨data, rfl⟩ := hjoin
    rcases join_cases data r with ⟨fault, ids, hend⟩ | ⟨p, -, hactions, hend⟩
    · refine hrecords ?_
      rw [hend]
      exact records_of_same rfl rfl rfl rfl
    · have hcomes : Comes data p.id r := ⟨p, rfl, hactions, congrArg Prod.fst hend⟩
      rw [hend] at h
      refine ⟨?_, ?_, h.closed, ?_, fun hkeyed id p' hp' => ?_⟩
      · rw [returnedOver, hend]
        exact h.history
      · rw [returnedOver, hend]
        exact h.recent
      · rw [returnedOver, hend]
        exact h.last
      · rcases h.lists (hkeyed.put p) id p' hp' with ⟨p₁, hp₁, hlist⟩ | hsince
        · rw [Table.get?_put] at hp₁
          split_ifs at hp₁ with hid
          · -- The newcomer's list starts on this request.
            cases hp₁
            refine .inr ⟨[], data, qs, rfl, hid ▸ hcomes, ?_⟩
            rw [hlist, hactions]
            simp only [List.nil_append, run, hend]
          · refine .inl ⟨p₁, hp₁, ?_⟩
            rw [returnedOver, hend]
            exact hlist
        · exact .inr (ListedSince.cons (hend ▸ hsince))

/-- The answer to a request for actions: an execution for each that was asked for. -/
def Tells (answer : Except Fault Answer) (es : List Execution) : Request → Prop
  | .act action player _ | .process action player _ =>
    ∃ e, es = [e] ∧ e.action = action ∧ e.player = player ∧ answer = .ok (.document e.toJson)
  | .submit asked =>
    es.map (fun e => (e.action, e.player)) = asked.map (fun a => (a.1, a.2.1)) ∧
      answer = .ok (.executions es)
  | _ => True

theorem create_bare (h : create d o = .ok r) :
    r.history = #[] ∧ r.recent = #[] ∧ r.closed = false := by
  obtain ⟨s, source, timestep, -, -, rfl⟩ := made_of_create h
  exact ⟨rfl, rfl, rfl⟩

end Gameroom.Room
