import Gameroom.Proofs.Room.Step
import Gameroom.Proofs.State.Change

/-!
Requests that edit the state of a room and do nothing else, and requests that do not touch what a
game is played with.
-/

namespace Gameroom.Room

section
variable {R : Room → Room → Prop} [IsPreorder Room R] {α : Type}

theorem alter_moves {f : Room → Room} {r : Room} (h : R r (f r)) : (alter f).Moves R r :=
  Task.Moves.bind (Task.moves_modify h) fun _ r₁ _ => Task.moves_pure _ r₁

theorem named_moves (name : Json) (r : Room) : (named name).Moves R r := Task.moves_look _ r

theorem answered {t : Task Room α} {f : α → Answer} {r : Room} (h : t.Moves R r) :
    (do return f (← t) : Task Room Answer).Moves R r :=
  h.bind fun _ r₁ _ => Task.moves_pure _ r₁

end

/-! ### Edits of the state -/

/-- Two rooms differ at most in the state, which keeps to a relation. -/
def Within (R : Definition → State → State → Prop) (r r' : Room) : Prop :=
  ∃ s, R r.definition r.state s ∧ r' = { r with state := s }

/-- Two rooms differ at most by edits of the state. -/
def Edited (r r' : Room) : Prop :=
  ∃ s, State.Edits r.definition r.state s ∧ r' = { r with state := s }

section
variable {R : Definition → State → State → Prop} [∀ d, IsPreorder State (R d)] {α : Type}

instance : IsPreorder Room (Within R) where
  refl r := ⟨r.state, refl_of (R r.definition) r.state, rfl⟩
  trans := by
    rintro r - - ⟨s, hs, rfl⟩ ⟨s', hs', rfl⟩
    exact ⟨s', trans_of (R r.definition) hs hs', rfl⟩

omit [∀ d, IsPreorder State (R d)] in
theorem onState_within {t : Task State α} {r : Room} (h : t.Moves (R r.definition) r.state) :
    (onState t).Moves (Within R) r := h.on fun s hs => ⟨s, hs, rfl⟩

omit [∀ d, IsPreorder State (R d)] in
theorem change_within {f : State → α × State} {r : Room}
    (h : R r.definition r.state (f r.state).2) : (change f).Moves (Within R) r :=
  Task.moves_modifyGet ⟨_, h, rfl⟩

theorem onVariable_within {name : Json} {work : String → State → Except Fault (Bool × State)}
    {r : Room} (hwork : ∀ name done s', work name r.state = .ok (done, s') →
      R r.definition r.state s') :
    (onState (Task.step (State.onVariable name work))).Moves (Within R) r := by
  refine onState_within (Task.moves_step fun done s' h => ?_)
  rcases State.onVariable_ok h with ⟨-, rfl⟩ | ⟨key, -, hkey⟩
  · exact refl_of (R r.definition) r.state
  · exact hwork key done s' hkey

end

instance : IsPreorder Room Edited := inferInstanceAs (IsPreorder Room (Within State.Edits))

def Request.edits : Request → Bool
  | .setVariable .. | .modifyVariable .. | .setProperty .. | .updatePlayer .. | .updateScore ..
  | .addLog _ | .addEvent .. | .apply _ | .applyAll .. | .setStatus _ | .startGame | .pauseGame
  | .resumeGame | .endGame _ => true
  | _ => false

/-- The effects that a request for an edit comes to, players apart. -/
def Request.asks : Request → Effect → Prop
  | .setVariable .., e | .modifyVariable .., e => ∃ target value, e = .setVar target value
  | .setProperty .., e => ∃ target value, e = .setEntity target value
  | .updateScore .., e => ∃ player score, e = .updateScore player score
  | .addLog message, e => e = .addLog message
  | .addEvent type message, e => e = .addEvent type message
  | .apply effect, e => e = effect
  | .applyAll effects _, e => e ∈ effects
  | .setStatus _, e | .startGame, e | .pauseGame, e | .resumeGame, e | .endGame _, e =>
    ∃ status, e = .setStatus status
  | _, _ => False

/-- Edits keep to a relation that admits the effects they come to, unless they are of a player. -/
theorem perform_within {ok : Effect → Prop} {R : Definition → State → State → Prop}
    [∀ d, IsPreorder State (R d)] (hR : ∀ d, State.Admits d ok (R d)) {q : Request} (hq : q.edits)
    (hplayer : ∀ id updates, q ≠ .updatePlayer id updates) (hok : ∀ e, q.asks e → ok e)
    (r : Room) : (perform q).Moves (Within R) r := by
  cases q with
  | setVariable name value =>
    exact Task.moves_get_bind (answered (onVariable_within fun _ _ _ =>
      (hR _).setVariable (hok _ ⟨_, _, rfl⟩)))
  | modifyVariable name op amount =>
    exact Task.moves_get_bind (answered (onVariable_within fun _ _ _ =>
      (hR _).modifyVariable fun _ => hok _ ⟨_, _, rfl⟩))
  | setProperty entity key value =>
    refine (named_moves entity r).bind fun entity r₁ _ => ?_
    refine (onState_within (Task.moves_modify ((hR _).openEntity entity r₁.state))).bind
      fun _ r₂ _ => ?_
    refine (named_moves key r₂).bind fun key r₃ _ => ?_
    exact (onState_within (Task.moves_modify ((hR _).effect
      (e := .setEntity (.text entity) (.object [(key, value)])) (hok _ ⟨_, _, rfl⟩)
        (.setEntity rfl)))).bind fun _ r₄ _ => Task.moves_pure _ r₄
  | updatePlayer id updates => exact absurd rfl (hplayer id updates)
  | updateScore id score =>
    exact (named_moves id r).bind fun id r₁ _ => (onState_within (Task.moves_modify ((hR _).effect
      (e := .updateScore (.text id) score) (hok _ ⟨_, _, rfl⟩) (.updateScore rfl)))).bind
        fun _ r₂ _ => Task.moves_pure _ r₂
  | addLog message =>
    exact (onState_within (Task.moves_modify ((hR _).effect (hok _ rfl)
      (.addLog message r.state)))).bind fun _ r₁ _ => Task.moves_pure _ r₁
  | addEvent type message =>
    exact Task.moves_get_bind (answered (onState_within (Task.moves_step
      fun _ _ h => (hR _).effect (hok _ rfl) (.addEvent h))))
  | apply effect =>
    have hobey := (hR r.definition).obey r.clock fun e (he : e ∈ [effect]) =>
      hok e (List.mem_singleton.1 he)
    exact Task.moves_get_bind (answered (onState_within
      (hobey effect List.mem_cons_self r.state)))
  | applyAll effects stopping =>
    exact Task.moves_get_bind (answered (onState_within
      (((hR _).obey _ hok).applyAll stopping r.state)))
  | setStatus status =>
    cases hs : Status.ofJson? status with
    | some next =>
      simp only [perform, hs]
      exact answered (change_within ((hR _).setStatus (hok _ ⟨_, rfl⟩) r.state))
    | none =>
      simp only [perform, hs]
      exact Task.moves_pure _ r
  | startGame => exact answered (change_within ((hR _).setStatus (hok _ ⟨_, rfl⟩) r.state))
  | pauseGame => exact answered (change_within ((hR _).pause (hok _ ⟨_, rfl⟩) r.state))
  | resumeGame => exact answered (change_within ((hR _).resume (hok _ ⟨_, rfl⟩) r.state))
  | endGame winner =>
    exact (onState_within (Task.moves_modify ((hR _).finish (hok _ ⟨_, rfl⟩) winner r.state))).bind
      fun _ r₁ _ => Task.moves_pure _ r₁
  | _ => cases hq

theorem perform_edited {q : Request} (hq : q.edits) (r : Room) : (perform q).Moves Edited r := by
  by_cases hplayer : ∀ id updates, q ≠ .updatePlayer id updates
  · exact perform_within State.edits_admits hq hplayer (fun _ _ => trivial) r
  · simp only [not_forall, not_not] at hplayer
    obtain ⟨id, updates, rfl⟩ := hplayer
    refine Task.moves_get_bind ?_
    split
    · exact Task.moves_pure _ r
    · exact (Task.moves_look _ r).bind fun updates r₁ _ =>
        answered (onState_within (State.updatePlayer_edits _ id updates r₁.state))

/-! ### Requests that look, listen and set up the loop -/

/-- Nothing changes but the settings and listeners of the loop, what listeners were told and what
rules and events have met. -/
structure Idle (r r' : Room) : Prop where
  aside : Aside r r'
  source : r'.source = r.source
  recent : r'.recent = r.recent
  closed : r'.closed = r.closed
  running : r'.loop.running = r.loop.running

instance : IsPreorder Room Idle where
  refl _ := ⟨⟨rfl, rfl, rfl, rfl, rfl, le_rfl⟩, rfl, rfl, rfl, rfl⟩
  trans _ _ _ h h' := ⟨
    ⟨h'.aside.definition.trans h.aside.definition, h'.aside.clock.trans h.aside.clock,
      h'.aside.state.trans h.aside.state, h'.aside.cooldowns.trans h.aside.cooldowns,
      h'.aside.history.trans h.aside.history, h.aside.ids.trans h'.aside.ids⟩,
    h'.source.trans h.source, h'.recent.trans h.recent, h'.closed.trans h.closed,
    h'.running.trans h.running⟩

theorem idle_loop (r : Room) (l : Loop) (h : l.running = r.loop.running) :
    Idle r { r with loop := l } := ⟨Aside.withLoop r l, rfl, rfl, rfl, h⟩

theorem alterLoop_idle {f : Loop → Loop} {r : Room} (h : (f r.loop).running = r.loop.running) :
    (alterLoop f).Moves Idle r := alter_moves (idle_loop r _ h)

/-- Whether a request is idle: it looks, listens or sets up the loop. -/
def Request.isIdle : Request → Bool
  | .setHost _ | .resetTracking | .setTimestep _ | .onTick .. | .onError .. | .removeTick _
  | .removeError _ | .seen | .history | .playerHistory _ | .allRecent | .recentActions _ | .snapshot
  | .timestamp | .getVariable _ | .getEntity _ | .getProperty .. | .getPlayer _ | .hasPlayer _
  | .getScore _ | .getScores | .getLogs | .getEvents | .checkCondition _ | .evaluateNumber _
  | .evaluateAll .. | .isShutDown | .checkRequirement .. | .availableActions _ | .cooldownStatus ..
  | .actionCooldowns _ | .isRunning | .statusWord | .currentTick | .stats | .summary
  | .stateSummary | .state => true
  | _ => false

/-- Whether a request sets up the loop, its listeners or what they note. -/
def Request.setsUp : Request → Bool
  | .setHost _ | .resetTracking | .setTimestep _ | .onTick .. | .onError .. | .removeTick _
  | .removeError _ | .seen => true
  | _ => false

theorem perform_look {q : Request} (hq : q.isIdle) (hset : q.setsUp = false) (r : Room) :
    r = ((perform q).outcome r).2 := by
  change (perform q).Moves Eq r
  cases q with
  | history | playerHistory | allRecent => exact Task.moves_get_bind (Task.moves_pure _ r)
  | recentActions count =>
    exact (Task.moves_look _ r).bind fun _ r₁ _ => Task.moves_get_bind (Task.moves_pure _ r₁)
  | snapshot => exact (Task.moves_look _ r).bind fun _ r₁ _ => Task.moves_pure _ r₁
  | timestamp | getVariable | getEntity | getProperty | getPlayer | hasPlayer | getScore | getScores
  | getLogs | getEvents | checkCondition | evaluateNumber | evaluateAll | isShutDown
  | checkRequirement | availableActions | cooldownStatus | actionCooldowns | isRunning | statusWord
  | currentTick | stats | summary | stateSummary | state => exact (Task.moves_look _ r).map _
  | setHost | resetTracking | setTimestep | onTick | onError | removeTick | removeError | seen =>
    cases hset
  | _ => cases hq

theorem perform_idle {q : Request} (hq : q.isIdle) (r : Room) : (perform q).Moves Idle r := by
  by_cases hset : q.setsUp = false
  · rw [Task.Moves, ← perform_look hq hset r]
    exact refl_of Idle r
  cases q with
  | setHost ms =>
    have hset : (setHost ms).Moves Idle r :=
      (Task.moves_look _ r).bind fun _ r₁ _ => Task.moves_modify (idle_loop r₁ _ rfl)
    exact hset.bind fun _ r₁ _ => Task.moves_pure _ r₁
  | resetTracking =>
    exact alter_moves ⟨⟨rfl, rfl, rfl, rfl, rfl, le_rfl⟩, rfl, rfl, rfl, rfl⟩
  | setTimestep ms => exact (Task.moves_look _ r).bind fun _ r₁ _ => alterLoop_idle rfl
  | onTick | onError => exact alterLoop_idle rfl
  | removeTick key =>
    unfold perform
    exact alterLoop_idle rfl
  | removeError key =>
    unfold perform
    exact alterLoop_idle rfl
  | seen =>
    exact Task.moves_modifyGet ⟨⟨rfl, rfl, rfl, rfl, rfl, le_rfl⟩, rfl, rfl, rfl, rfl⟩
  | _ => exact absurd rfl hset

end Gameroom.Room
