import Gameroom.Proofs.Room.Bounds
import Gameroom.Proofs.Room.History

/-!
A score is held twice, by the index and with its player. The two agree in every state of a run
exactly if no request sets the player's own score to one that the index does not have: a player who
comes with a score, or whose score is updated, is not entered in the index.
-/

namespace Gameroom

/-- Two documents are the same or count as equal. -/
def Json.Agrees (a b : Json) : Prop := a = b ∨ a.equal b

namespace State
variable {d : Definition} {s s' : State}

/-- Each player has the score that the index has for the player. -/
def OneScore (s : State) : Prop :=
  ∀ id p, s.players.get? id = some p → (s.scoreOf id).Agrees p.score

/-- Players stand under their own ids, with the scores of the index. -/
structure Scored (s : State) : Prop where
  keyed : Player.Keyed s.players
  one : s.OneScore

theorem Scored.of_same (h : Scored s) (hplayers : s'.players = s.players)
    (hscore : s'.score = s.score) : Scored s' := by
  refine ⟨hplayers ▸ h.keyed, fun id p hp => ?_⟩
  rw [hplayers] at hp
  rw [scoreOf, hscore]
  exact h.one id p hp

theorem Scored.put_iff (h : Scored s) (p : Player) :
    Scored { s with players := s.players.put p.id p } ↔ (s.scoreOf p.id).Agrees p.score := by
  refine ⟨fun h' => h'.one p.id p (Table.get?_put_self _ _ _), fun hp => ?_⟩
  refine ⟨h.keyed.put p, fun id q hq => ?_⟩
  rw [Table.get?_put] at hq
  split_ifs at hq with hid
  · cases hq
    exact hid ▸ hp
  · exact h.one id q hq

theorem Scored.drop (h : Scored s) (id : String) :
    Scored { s with players := s.players.drop id } := by
  refine ⟨h.keyed.drop id, fun other p hp => ?_⟩
  rw [Table.get?_drop] at hp
  split_ifs at hp
  exact h.one other p hp

theorem Scored.rewrite (h : Scored s) {id : Json} {p : Player} (hp : s.player? id = some p)
    (p' : Player) (hid : p'.id = p.id) (hscore : p'.score = p.score) :
    Scored { s with players := s.players.put p'.id p' } := by
  cases id with
  | text id =>
    rw [h.put_iff, hid, hscore, h.keyed id p hp]
    exact h.one id p hp
  | _ => cases hp

theorem Scored.updateScore (h : Scored s) (id : String) (score : Json) :
    Scored (s.updateScore id score) := by
  -- The other entries of the table are read as before.
  have hentry (other : String) (p : Player) (hp : s.players.get? other = some p)
      (hne : id ≠ other) : ((s.updateScore id score).scoreOf other).Agrees p.score := by
    have hsame : (s.updateScore id score).scoreOf other = s.scoreOf other := by
      simp only [State.updateScore, scoreOf, Table.get?_put_of_ne _ _ hne]
    rw [hsame]
    exact h.one other p hp
  have hown : (s.updateScore id score).scoreOf id = score := by
    simp only [State.updateScore, scoreOf, Table.get?_put_self, Option.getD_some]
  cases hp : s.players.get? id with
  -- A score of someone who is not there has no player to agree with.
  | none =>
    have hplayers : (s.updateScore id score).players = s.players := by
      simp only [State.updateScore, hp]
    refine ⟨hplayers ▸ h.keyed, fun other q hq => ?_⟩
    rw [hplayers] at hq
    refine hentry other q hq ?_
    rintro rfl
    rw [hp] at hq
    cases hq
  | some p =>
    have hplayers : (s.updateScore id score).players = s.players.put id { p with score } := by
      simp only [State.updateScore, hp]
    have hid := h.keyed id p hp
    refine ⟨?_, fun other q hq => ?_⟩
    · rw [hplayers, ← hid]
      exact h.keyed.put { p with score }
    · rw [hplayers, Table.get?_put] at hq
      split_ifs at hq with hother
      · subst hother
        cases hq
        rw [hown]
        exact .inl rfl
      · exact hentry other q hq hother

theorem Scored.changes {e : Effect} (h : Scored s) (he : e.Changes d s s') : Scored s' := by
  cases he with
  | setVar hset | modifyVar hset =>
    obtain ⟨v, n, -, rfl⟩ := setVariable_ok hset
    exact h.of_same rfl rfl
  | @setEntity target entity properties _ _ =>
    have hframe := (setProperties_same entity properties s).frame
    exact h.of_same (congrArg players hframe :) (congrArg State.score hframe :)
  | triggerEvent | message => exact h
  | updateScore => exact h.updateScore _ _
  | addLog | setStatus => exact h.of_same rfl rfl
  | addEvent hevent =>
    obtain ⟨timestamp, -, hevent⟩ := ok_of_bind hevent
    cases hevent
    exact h.of_same rfl rfl

theorem admits_scored (d : Definition) : Admits d (fun _ => True) (Keeps Scored) where
  effect _ he h := h.changes he
  openEntity _ _ h := h.of_same rfl rfl
  win _ _ h := h.of_same rfl rfl

theorem Scored.recorded (h : Scored s) (e : Execution) : Scored (s.recorded e) := by
  have hfollowed : Scored (s.followed e) := by
    unfold followed
    cases e.action <;> exact h.of_same rfl rfl
  unfold State.recorded listed
  split
  · rename_i p hp
    exact hfollowed.rewrite hp { p with actions := p.actions.push e.action } rfl rfl
  · exact hfollowed

theorem Deed.scored {es : List Execution} (hdeed : Deed d es s s') (h : Scored s) : Scored s' := by
  cases hdeed with
  | effect he now => exact (admits_scored d).obey now (fun _ _ => trivial) _ he _ h
  | count => exact h.of_same rfl rfl
  | move next => exact (admits_scored d).setStatus trivial s h
  | record e => exact h.recorded e

theorem Scored.removePlayer (h : Scored s) (id : Json) : Scored (removePlayer id s).2 := by
  unfold State.removePlayer
  split
  · split_ifs
    · exact h.drop _
    · exact h
  · exact h

theorem scored_initial {now : Float} {source source' : Source}
    (h : initial d now source = .ok s source') : Scored s := by
  have hnone := Room.fresh_of_initial h
  constructor <;> intro id p hp <;> rw [hnone] at hp <;> cases hp

end State

namespace Room
variable {d : Definition} {o : Options} {r : Room}

/-! ### Requests that set a player's own score -/

/-- The score with which a player comes, by what is told of the player. -/
def scoreOnJoining (fields : Table Json) : Except Fault Json := do
  let score := (fields.get? "score").getD (.int 0)
  return if ← isScore score then score else .int 0

/-- The player whose own score a request sets and the index does not learn of, and that score. -/
def Request.ownScore? (q : Request) (r : Room) : Option (String × Json) :=
  match q with
  | .addPlayer data =>
    match playerData data >>= scoreOnJoining with
    | .ok score => some (playerId (r.ids + 1), score)
    | .error _ => none
  | .updatePlayer id updates => do
    let p ← r.state.player? id
    match updatesOf updates with
    | .ok fields =>
      match isScore (Json.field fields "score") with
      | .ok true => some (p.id, Json.field fields "score")
      | _ => none
    | .error _ => none
  | _ => none

/-- A request sets a player's own score to one that the index does not have. -/
def Request.Splits (q : Request) (r : Room) : Prop :=
  ∃ id score, q.ownScore? r = some (id, score) ∧ ¬(r.state.scoreOf id).Agrees score

/-- What a request does to the players if it sets the own score of one of them, and else. -/
def SetsOwn (r r' : Room) : Option (String × Json) → Prop
  | some (id, score) => ∃ p : Player, p.id = id ∧ p.score = score ∧
      r'.state = { r.state with players := r.state.players.put p.id p }
  | none => State.Scored r.state → State.Scored r'.state

theorem addPlayer_scored (fields : Table Json) (r : Room) :
    (∃ fault, scoreOnJoining fields = .error fault ∧
      addPlayer fields r = .error fault { r with ids := r.ids + 1 }) ∨
    ∃ p : Player, p.id = playerId (r.ids + 1) ∧ scoreOnJoining fields = .ok p.score ∧
      addPlayer fields r = .ok p { r with
        ids := r.ids + 1
        state := { r.state with players := r.state.players.put p.id p } } := by
  simp only [scoreOnJoining, addPlayer, bind, Except.bind, EStateM.bind, modify, modifyGet,
    MonadStateOf.modifyGet, EStateM.modifyGet, get, getThe, MonadStateOf.get, EStateM.get,
    Task.look]
  cases isScore ((fields.get? "score").getD (.int 0)) with
  | error fault => exact .inl ⟨fault, rfl, rfl⟩
  | ok scored => exact .inr ⟨⟨playerId (r.ids + 1), _, _, _, _, _, _⟩, rfl, rfl, rfl⟩

theorem addPlayer_setsOwn (data : Json) (r : Room) :
    SetsOwn r ((perform (.addPlayer data)).outcome r).2
      (Request.ownScore? (.addPlayer data) r) := by
  have hkept (ids : Nat) : SetsOwn r { r with ids } none := fun h => h
  unfold Task.outcome
  cases hdata : playerData data with
  | error fault =>
    have hrun : perform (.addPlayer data) r = .error fault r :=
      Task.bind_error (Task.look_error hdata)
    simp only [hrun, Request.ownScore?, hdata]
    exact hkept r.ids
  | ok fields =>
    have hrun : perform (.addPlayer data) r =
        (do return .document (← addPlayer fields).toJson : Task Room Answer) r :=
      Task.bind_ok (Task.look_ok hdata)
    have hscored : (Except.ok fields >>= scoreOnJoining) = scoreOnJoining fields := rfl
    rcases addPlayer_scored fields r with ⟨fault, hscore, h⟩ | ⟨p, hid, hscore, h⟩
    · simp only [hrun, Task.bind_error h, Request.ownScore?, hdata, hscored, hscore]
      exact hkept (r.ids + 1)
    · simp only [hrun, Task.bind_ok h, Request.ownScore?, hdata, hscored, hscore]
      exact ⟨p, hid, rfl, rfl⟩

theorem updatePlayer_scored {id : Json} {p : Player} {s : State} (now : Float)
    (hp : s.player? id = some p) (fields : Table Json) :
    ∃ p' : Player, p'.id = p.id ∧
      p'.score = (match isScore (Json.field fields "score") with
        | .ok true => Json.field fields "score"
        | _ => p.score) ∧
      ((State.updatePlayer now id fields).outcome s).2 =
        { s with players := s.players.put p'.id p' } := by
  unfold Task.outcome State.updatePlayer
  rw [hp]
  cases isScore (Json.field fields "score") with
  | error fault =>
    exact ⟨{ p with
      nickname := State.renamed fields "alias" p.nickname
      role := State.renamed fields "role" p.role }, rfl, rfl, rfl⟩
  | ok scored =>
    refine ⟨{ p with
      nickname := State.renamed fields "alias" p.nickname
      role := State.renamed fields "role" p.role
      score := if scored then Json.field fields "score" else p.score
      lastSeen := now }, rfl, ?_, rfl⟩
    cases scored <;> rfl

theorem updatePlayer_nobody {id : Json} (hp : r.state.player? id = none) (updates : Json) :
    perform (.updatePlayer id updates) r = .ok (.truth false) r := by
  simp only [perform, bind, EStateM.bind, get, getThe, MonadStateOf.get, EStateM.get,
    State.hasPlayer, hp]
  rfl

theorem updatePlayer_somebody {id : Json} {p : Player} (hp : r.state.player? id = some p)
    (updates : Json) :
    perform (.updatePlayer id updates) r =
      (do
        let fields ← Task.look fun _ => updatesOf updates
        return .truth (← onState (State.updatePlayer r.clock id fields)) : Task Room Answer) r := by
  simp only [perform, bind, EStateM.bind, get, getThe, MonadStateOf.get, EStateM.get,
    State.hasPlayer, hp]
  rfl

theorem updatePlayer_unread {id updates : Json} {p : Player} {fault : Fault}
    (hp : r.state.player? id = some p) (hfields : updatesOf updates = .error fault) :
    (perform (.updatePlayer id updates)).outcome r = (.error fault, r) :=
  Task.outcome_error ((updatePlayer_somebody hp updates).trans
    (Task.bind_error (Task.look_error hfields)))

theorem updatePlayer_state {id updates : Json} {p : Player} {fields : Table Json}
    (hp : r.state.player? id = some p) (hfields : updatesOf updates = .ok fields) :
    ((perform (.updatePlayer id updates)).outcome r).2.state =
      ((State.updatePlayer r.clock id fields).outcome r.state).2 := by
  have hlook : Task.look (fun _ => updatesOf updates) r = .ok fields r := Task.look_ok hfields
  have hnext : (perform (.updatePlayer id updates)).outcome r =
      (do return .truth (← onState (State.updatePlayer r.clock id fields)) :
        Task Room Answer).outcome r := by
    simp only [Task.outcome, updatePlayer_somebody hp, Task.bind_ok hlook]
  rw [hnext, outcome_bind_pure]
  unfold onState Task.outcome Task.on
  cases State.updatePlayer r.clock id fields r.state <;> rfl

theorem updatePlayer_setsOwn (id updates : Json) (r : Room) :
    SetsOwn r ((perform (.updatePlayer id updates)).outcome r).2
      (Request.ownScore? (.updatePlayer id updates) r) := by
  cases hp : r.state.player? id with
  | none =>
    rw [Task.outcome_ok (updatePlayer_nobody hp updates)]
    simp only [Request.ownScore?, hp]
    exact fun h => h
  | some p =>
    cases hfields : updatesOf updates with
    | error fault =>
      rw [updatePlayer_unread hp hfields]
      simp only [Request.ownScore?, hp, hfields]
      exact fun h => h
    | ok fields =>
      -- The player is put back, whether the update comes to its end or not.
      obtain ⟨p', hid, hscore, hend⟩ := updatePlayer_scored r.clock hp fields
      have hstate := (updatePlayer_state hp hfields).trans hend
      cases hwritten : isScore (Json.field fields "score") with
      | error fault =>
        rw [hwritten] at hscore
        simp only [Request.ownScore?, hp, hfields, hwritten, Option.bind_eq_bind, Option.bind_some]
        exact fun h => hstate ▸ h.rewrite hp p' hid hscore
      | ok scored =>
        rw [hwritten] at hscore
        simp only [Request.ownScore?, hp, hfields, hwritten, Option.bind_eq_bind, Option.bind_some]
        cases scored with
        | false => exact fun h => hstate ▸ h.rewrite hp p' hid hscore
        | true => exact ⟨p', hid, hscore, hstate⟩

/-! ### All other requests -/

theorem stop_scored (r : Room) : Keeps State.Scored r.state r.stop.state := fun h =>
  (stop_played r).course.keeps (fun _ _ _ hdeed => hdeed.scored) h

theorem restart_state {q : Request} (hq : q.restarts) (r : Room) :
    IsFirst r.definition ((perform q).outcome r).2.state ∨
      ((perform q).outcome r).2.state = r.state ∨
      ((perform q).outcome r).2.state = r.stop.state := by
  cases q with
  | renew =>
    rw [perform, outcome_bind_pure]
    cases hs : State.initial r.definition r.clock r.source with
    | error fault source =>
      rw [Task.outcome_error (renew_error hs)]
      exact .inr (.inl rfl)
    | ok s source =>
      rw [Task.outcome_ok (renew_ok hs)]
      exact .inl ⟨_, _, _, hs⟩
  | reset =>
    rcases reset_end r with ⟨fault, source, -, hend⟩ | ⟨s, source, hs, hend⟩ <;> rw [hend]
    · exact .inr (.inr rfl)
    · exact .inl ⟨_, _, _, hs⟩
  | _ => cases hq

theorem restart_scored {q : Request} (hq : q.restarts) (r : Room) :
    Keeps State.Scored r.state ((perform q).outcome r).2.state := by
  rcases restart_state hq r with ⟨now, source, source', hs⟩ | hs | hs
  · exact fun _ => State.scored_initial hs
  · rw [hs]
    exact refl_of (Keeps State.Scored) r.state
  · rw [hs]
    exact stop_scored r

theorem removePlayer_state (id : Json) (r : Room) :
    ((removePlayer id).outcome r).2.state = (State.removePlayer id r.state).2 := by
  simp only [Task.outcome, removePlayer, change, bind, EStateM.bind, modifyGet,
    MonadStateOf.modifyGet, EStateM.modifyGet]
  cases (State.removePlayer id r.state).1 <;> rfl

/-- Whatever is asked besides that a player comes or is updated keeps the two scores of each player
alike. -/
theorem perform_scored {q : Request} (hjoin : ∀ data, q ≠ .addPlayer data)
    (hupdate : ∀ id updates, q ≠ .updatePlayer id updates) (r : Room) :
    Keeps State.Scored r.state ((perform q).outcome r).2.state := by
  cases q.aim with
  | looks hidle | setsUp hidle =>
    rw [(perform_idle hidle r).aside.state]
    exact refl_of (Keeps State.Scored) r.state
  | edits hedits =>
    obtain ⟨s, hs, hend⟩ := perform_within (R := fun _ => Keeps State.Scored) State.admits_scored
      hedits hupdate (fun _ _ => trivial) r
    rw [hend]
    exact hs
  | course hcourse => exact (perform_played hcourse r).course.keeps fun _ _ _ hdeed => hdeed.scored
  | clock hclock =>
    obtain ⟨clock, hend⟩ := perform_clock q r hclock
    rw [hend]
    exact refl_of (Keeps State.Scored) r.state
  | cooldowns hhandles =>
    obtain ⟨cooldowns, hend⟩ := perform_handled hhandles r
    rw [hend]
    exact refl_of (Keeps State.Scored) r.state
  | join data => exact absurd rfl (hjoin data)
  | leave id =>
    rw [perform, outcome_bind_pure, removePlayer_state]
    exact fun h => h.removePlayer id
  | drop id =>
    rw [perform, outcome_bind_pure]
    exact fun h => h.removePlayer id
  | renew | reset => exact restart_scored rfl r
  | destroy => exact stop_scored r
  | close => exact stop_scored { r with closed := true }
  | count => exact fun h => h.of_same rfl rfl
  | clearHistory | clearRecent => exact refl_of (Keeps State.Scored) r.state

theorem perform_setsOwn (q : Request) (r : Room) :
    SetsOwn r ((perform q).outcome r).2 (q.ownScore? r) := by
  cases q with
  | addPlayer data => exact addPlayer_setsOwn data r
  | updatePlayer id updates => exact updatePlayer_setsOwn id updates r
  | _ => exact perform_scored (fun _ => Request.noConfusion) (fun _ _ => Request.noConfusion) r

theorem perform_oneScore_iff (h : State.Scored r.state) (q : Request) :
    ((perform q).outcome r).2.state.OneScore ↔ ¬q.Splits r := by
  have hown := perform_setsOwn q r
  unfold Request.Splits
  cases hscore : q.ownScore? r with
  | none =>
    rw [hscore] at hown
    refine iff_of_true (hown h).one ?_
    rintro ⟨id, score, hsome, -⟩
    cases hsome
  | some entry =>
    obtain ⟨id, score⟩ := entry
    rw [hscore] at hown
    obtain ⟨p, rfl, rfl, hstate⟩ := hown
    rw [hstate]
    constructor
    · rintro hone ⟨id, score, hsome, hsplit⟩
      cases hsome
      exact hsplit (hone p.id p (Table.get?_put_self _ _ _))
    · intro hnot
      refine ((h.put_iff p).2 ?_).one
      exact not_not.1 fun hsplit => hnot ⟨p.id, p.score, rfl, hsplit⟩

/-! ### Runs -/

/-- In all states of a run the two scores of each player agree exactly if no request of the run
sets a player's own score to one that the index does not have at that time. -/
theorem scores_agree_iff (hr : create d o = .ok r) (qs : List Request) :
    (∀ qs', qs' <+: qs → (run qs' r).2.state.OneScore) ↔
      ∀ qs' q, qs' ++ [q] <+: qs → ¬q.Splits (run qs' r).2 := by
  have hscored (qs' : List Request) (h : (run qs' r).2.state.OneScore) :
      State.Scored (run qs' r).2.state := ⟨((roster_create hr).run qs').keyed, h⟩
  have hnext (qs' : List Request) (q : Request) :
      (run (qs' ++ [q]) r).2 = ((perform q).outcome (run qs' r).2).2 := run_append qs' [q] r
  constructor
  · intro h qs' q hq
    have hone := h _ hq
    rw [hnext] at hone
    exact (perform_oneScore_iff (hscored qs' (h qs' ((List.prefix_append _ _).trans hq))) q).1 hone
  · intro h qs'
    induction qs' using List.reverseRecOn with
    | nil =>
      intro _
      obtain ⟨-, source, hs⟩ := create_ok hr
      exact (State.scored_initial hs).one
    | append_singleton qs' q ih =>
      intro hq
      rw [hnext]
      exact (perform_oneScore_iff (hscored qs' (ih ((List.prefix_append _ _).trans hq))) q).2
        (h qs' q hq)

/-- Someone comes with a zero, gets points, is renamed and leaves, and the game starts again. -/
def scoring : List Request :=
  [.addPlayer (.object [("score", .float 0.0)]), .updateScore (.text (playerId 1)) (.int 7),
    .updatePlayer (.text (playerId 1)) (.object [("alias", .text "one"), ("score", .float 7.0)]),
    .forceTick, .removePlayer (.text (playerId 1)), .reset, .addPlayer .null]

theorem scores_agree_iff_scoring :
    ∃ d r, d.Parsed ∧ create d .still = .ok r ∧
      (∀ qs', qs' <+: scoring → (run qs' r).2.state.OneScore) ∧
      ((run (scoring.take 3) r).2.state.players.get? (playerId 1)).map (fun p => p.score.truthy) =
        some true := by
  obtain ⟨d, hd⟩ : ∃ d, Definition.ofFields uneventful = .ok d := ⟨_, rfl⟩
  obtain ⟨r, hr⟩ : ∃ r, create d .still = .ok r := by
    cases hd
    exact ⟨_, rfl⟩
  have hkept : ∀ qs ∈ scoring.inits, qs.getLast?.all fun q =>
      (q.ownScore? (run qs.dropLast r).2).all fun entry =>
        ((run qs.dropLast r).2.state.scoreOf entry.1).equal entry.2 := by
    cases hd
    cases hr
    decide +kernel
  refine ⟨d, r, ⟨uneventful, hd⟩, hr, (scores_agree_iff hr scoring).2 ?_, ?_⟩
  · rintro qs' q hq ⟨id, score, hscore, hsplit⟩
    have hagree := hkept _ ((List.mem_inits _ _).2 hq)
    rw [List.getLast?_concat, List.dropLast_concat, Option.all_some, hscore,
      Option.all_some] at hagree
    exact hsplit (.inr hagree)
  · cases hd
    cases hr
    decide +kernel

/-- Who comes with a score has it, and the index has none. -/
theorem scores_disagree_on_joining :
    ∃ d r, d.Parsed ∧ create d .still = .ok r ∧
      ¬(run [.addPlayer (.object [("score", .int 5)])] r).2.state.OneScore := by
  obtain ⟨d, hd⟩ : ∃ d, Definition.ofFields uneventful = .ok d := ⟨_, rfl⟩
  obtain ⟨r, hr⟩ : ∃ r, create d .still = .ok r := by
    cases hd
    exact ⟨_, rfl⟩
  refine ⟨d, r, ⟨uneventful, hd⟩, hr, fun h => ?_⟩
  cases hd
  cases hr
  rcases h (playerId 1) _ rfl with hsame | hequal
  · cases hsame
  · revert hequal
    decide +kernel

end Room
end Gameroom
