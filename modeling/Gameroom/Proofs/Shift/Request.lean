import Gameroom.Proofs.Shift.Answer

/-!
Requests to rooms whose times lie later. Each is answered the same but for the times, and the rooms
go on the same but for the times.
-/

namespace Gameroom.Room

open Gameroom.Task

variable {delay : Int} {r r' : Room} {α : Type} {V : α → α → Prop}

/-! ### Parts of requests -/

theorem look_agree (h : Delayed delay r r') {f : Room → Except Fault Json} (hf : f r' = f r) :
    Agree (Delayed delay) Same (look f) (look f) r r' := by
  unfold look
  rw [map_eq_pure_bind]
  refine Agree.bind_same (agree_look_same hf h) fun _ _ _ h₁ => ?_
  exact agree_pure rfl h₁

theorem look_state_agree (h : Delayed delay r r') (f : State → Except Fault Json)
    (hf : ∀ s players events time, f (s.dated players events time) = f s) :
    Agree (Delayed delay) Same (look fun r => f r.state) (look fun r => f r.state) r r' :=
  look_agree h (h.state.same f (hf r.state))

theorem glance_agree (h : Delayed delay r r') {f : Room → Json} (hf : f r' = f r) :
    Agree (Delayed delay) Same (glance f) (glance f) r r' := look_agree h (congrArg Except.ok hf)

theorem look_shown_agree (h : Delayed delay r r') {f : Room → Except Fault Json}
    {show' : α → Json} {a a' : α} (hV : V a a') (hf : f r = .ok (show' a))
    (hf' : f r' = .ok (show' a')) :
    Agree (Delayed delay) (Showing (fun a => .document (show' a)) V) (look f) (look f) r r' := by
  unfold look
  rw [map_eq_pure_bind]
  have hlook : Agree (Delayed delay) (fun value value' => value = show' a ∧ value' = show' a')
      (Task.look f) (Task.look f) r r' := by
    refine agree_look ?_ h
    rw [hf, hf']
    exact .ok ⟨rfl, rfl⟩
  refine hlook.bind ?_
  rintro _ _ r₁ r₁' ⟨rfl, rfl⟩ h₁
  exact agree_pure ⟨a, a', hV, rfl, rfl⟩ h₁

theorem showing_agree (h : Delayed delay r r') {show' : α → Answer} {a a' : α} (hV : V a a') :
    Agree (Delayed delay) (Showing show' V) (pure (show' a)) (pure (show' a')) r r' :=
  agree_pure ⟨a, a', hV, rfl, rfl⟩ h

theorem shown_agree {show' : α → Answer} {t t' : Task Room α}
    (ht : Agree (Delayed delay) V t t' r r') :
    Agree (Delayed delay) (Showing show' V) (do return show' (← t)) (do return show' (← t')) r r' :=
  ht.bind fun _ _ _ _ hV h => showing_agree h hV

theorem answered_agree {answer : α → Answer} {t t' : Task Room α}
    (ht : Agree (Delayed delay) Same t t' r r') :
    Agree (Delayed delay) Same (do return answer (← t)) (do return answer (← t')) r r' :=
  ht.bind fun _ _ _ _ hsame h => agree_pure (congrArg answer hsame) h

theorem done_agree {t t' : Task Room Unit} {answer : Answer}
    (ht : Agree (Delayed delay) (fun _ _ => True) t t' r r') :
    Agree (Delayed delay) Same (do t; return answer) (do t'; return answer) r r' :=
  ht.bind fun _ _ _ _ _ h => agree_pure rfl h

theorem alter_agree {f f' : Room → Room} (hf : Delayed delay (f r) (f' r')) :
    Agree (Delayed delay) Same (alter f) (alter f') r r' := done_agree (agree_modify hf)

theorem alterLoop_agree (h : Delayed delay r r') (f : Loop → Loop) :
    Agree (Delayed delay) Same (alterLoop f) (alterLoop f) r r' := alter_agree (h.withLoop f)

theorem named_agree (h : Delayed delay r r') (name : Json) :
    Agree (Delayed delay) Same (named name) (named name) r r' := agree_look_same rfl h

theorem submitAll_agree (h : Delayed delay r r') (asked : List (Json × Json × Json)) :
    Agree (Delayed delay) (List.Forall₂ (Execution.Delayed delay)) (submitAll asked)
      (submitAll asked) r r' := by
  induction asked generalizing r r' with
  | nil => exact agree_pure .nil h
  | cons first rest ih =>
    obtain ⟨action, player, parameters⟩ := first
    exact (h.submit action player parameters).bind fun _ _ _ _ he h₁ =>
      (ih h₁).bind fun _ _ _ _ hes h₂ => agree_pure (.cons he hes) h₂

theorem forall₂_asked {es es' : List Execution} (h : List.Forall₂ (Execution.Delayed delay) es es')
    (player : Json) : List.Forall₂ (Execution.Delayed delay) (es.filter (·.player.equal player))
      (es'.filter (·.player.equal player)) := by
  induction h with
  | nil => exact .nil
  | cons he _ ih =>
    rw [List.filter_cons, List.filter_cons, he.player]
    split_ifs
    · exact .cons he ih
    · exact ih

theorem forall₂_taken {ns ns' : List TickNote} (h : List.Forall₂ (TickNote.Delayed delay) ns ns') :
    List.Forall₂ (TickNote.Delayed delay) (ns.filter (·.refusal.isNone))
      (ns'.filter (·.refusal.isNone)) := by
  induction h with
  | nil => exact .nil
  | cons hn _ ih =>
    rw [List.filter_cons, List.filter_cons, hn.refusal]
    split_ifs
    · exact .cons hn ih
    · exact ih

/-! ### Times that are given -/

namespace Request

def tellsTime : Request → Bool
  | .advanceClock _ | .setClock _ => true
  | .setCooldown _ _ time => !time.isNull
  | _ => false

end Request

theorem setCooldown_agree (h : Delayed delay r r') (action player : Json) {time time' : Json}
    (htime : ∀ {x x' : Float}, DelayedReading delay x x' →
      DelayedTime delay (if time.isNull then .float x else time)
        (if time'.isNull then .float x' else time')) :
    Agree (Delayed delay) Same (perform (.setCooldown action player time))
      (perform (.setCooldown action player time')) r r' := by
  refine (named_agree h player).bind_same fun player _ _ h₁ => ?_
  refine (agree_modify (h₁.withCooldowns (h₁.cooldowns.openFor player))).bind
    fun _ _ r₂ r₂' _ h₂ => (named_agree h₂ action).bind_same fun action _ _ h₃ => ?_
  exact alter_agree (h₃.withCooldowns (h₃.cooldowns.stamp player action (htime h₃.clock.later)))

/-! ### Requests of several steps -/

theorem tick_agree (h : Delayed delay r r') :
    Agree (Delayed delay) Same (do return .count (← get).state.tick : Task Room Answer)
      (do return .count (← get).state.tick) r r' := by
  refine agree_get_bind ?_
  rw [h.state.same (·.tick) fun _ _ _ => rfl]
  exact agree_pure rfl h

theorem setProperty_agree (h : Delayed delay r r') (entity key value : Json) :
    Agree (Delayed delay) Same (perform (.setProperty entity key value))
      (perform (.setProperty entity key value)) r r' := by
  refine (named_agree h entity).bind_same fun entity _ _ h₁ => ?_
  refine (h₁.onState (agree_modify (h₁.state.openEntity entity))).bind fun _ _ _ _ _ h₂ => ?_
  refine (named_agree h₂ key).bind_same fun key _ _ h₃ => ?_
  exact done_agree (h₃.onState (agree_modify (h₃.state.setProperty entity key value)))

theorem updatePlayer_agree (h : Delayed delay r r') (id updates : Json) :
    Agree (Delayed delay) Same (perform (.updatePlayer id updates))
      (perform (.updatePlayer id updates)) r r' := by
  refine agree_get_bind ?_
  rw [h.state.hasPlayer id]
  split
  · exact agree_pure rfl h
  · refine Agree.bind_same (agree_look_same rfl h) fun updates _ _ h₁ => ?_
    exact answered_agree (h₁.onState (h₁.state.updatePlayer h.clock.later id updates))

theorem recentActions_agree (h : Delayed delay r r') (count : Json) :
    Agree (Delayed delay) (Answer.Delayed delay (.recentActions count))
      (perform (.recentActions count)) (perform (.recentActions count)) r r' := by
  refine Agree.bind_same (agree_look_same rfl h) fun count r₁ r₁' h₁ => agree_get_bind ?_
  have hlength : r₁'.recent.toList.length = r₁.recent.toList.length :=
    h₁.dates.recent.length_eq.symm
  dsimp only
  rw [hlength]
  exact showing_agree h₁ (List.forall₂_drop _ h₁.dates.recent)

theorem actionCooldowns_agree (h : Delayed delay r r') (player : Json) :
    Agree (Delayed delay) Same (perform (.actionCooldowns player))
      (perform (.actionCooldowns player)) r r' := by
  have hkeys (player : String) :
      (r'.cooldowns.stamps player).keys = (r.cooldowns.stamps player).keys :=
    (h.cooldowns.stamps player).keys
  refine look_agree h ?_
  simp only [h.definition, hkeys, Definition.restingAmong_delayed h.cooldowns h.clock.later]

theorem clearCooldown_agree (h : Delayed delay r r') (action player : Json) :
    Agree (Delayed delay) Same (perform (.clearCooldown action player))
      (perform (.clearCooldown action player)) r r' := by
  refine (named_agree h player).bind_same fun player _ _ h₁ => agree_get_bind ?_
  rw [(h₁.cooldowns.stamps player).isEmpty]
  split
  · exact agree_pure rfl h₁
  · refine (named_agree h₁ action).bind_same fun action _ _ h₂ => ?_
    exact alter_agree (h₂.withCooldowns (h₂.cooldowns.clear player action))

theorem clearPlayerCooldowns_agree (h : Delayed delay r r') (player : Json) :
    Agree (Delayed delay) Same (perform (.clearPlayerCooldowns player))
      (perform (.clearPlayerCooldowns player)) r r' := by
  refine agree_get_bind ?_
  rw [h.cooldowns.isEmpty]
  split
  · exact agree_pure rfl h
  · refine (named_agree h player).bind_same fun player _ _ h₁ => ?_
    exact alter_agree (h₁.withCooldowns (h₁.cooldowns.drop player))

theorem setStatus_agree (h : Delayed delay r r') (status : Json) :
    Agree (Delayed delay) Same (perform (.setStatus status)) (perform (.setStatus status))
      r r' := by
  cases hs : Status.ofJson? status with
  | some next =>
    simp only [perform, hs]
    exact answered_agree (h.change (h.state.setStatus next).1 (h.state.setStatus next).2)
  | none =>
    simp only [perform, hs]
    exact agree_pure rfl h

theorem seen_agree (h : Delayed delay r r') :
    Agree (Delayed delay) (Answer.Delayed delay .seen) (perform .seen) (perform .seen) r r' := by
  have herrors : r'.errorNotes = r.errorNotes := h.same (·.errorNotes) fun _ _ => rfl
  refine agree_modifyGet ⟨r.tickNotes.filter (·.refusal.isNone),
    r'.tickNotes.filter (·.refusal.isNone), r.errorNotes.filter (!·.refused), rfl, ?_, ?_⟩ ?_
  · rw [herrors]
  · rw [Array.toList_filter, Array.toList_filter]
    exact forall₂_taken h.dates.tickNotes
  · exact (h.redated { r.dates with tickNotes := #[] } { r'.dates with tickNotes := #[] }
      { h.dates with tickNotes := .nil }).aloof (f := fun r => { r with errorNotes := #[] })
        fun _ _ => rfl

theorem stats_same (h : Delayed delay r r') : r'.stats = r.stats := by
  have htick : r'.state.tick = r.state.tick := h.state.same (·.tick) fun _ _ _ => rfl
  have hstatus : r'.state.status = r.state.status := h.state.same (·.status) fun _ _ _ => rfl
  unfold Room.stats
  rw [h.loop, htick, hstatus]

theorem snapshot_agree (h : Delayed delay r r') :
    Agree (Delayed delay) (Answer.Delayed delay .snapshot) (perform .snapshot) (perform .snapshot)
      r r' := by
  have hid : r'.id = r.id := h.same (·.id) fun _ _ => rfl
  refine shown_agree (agree_look (Fit.orFault_answered ?_) h)
  unfold Room.snapshot
  rw [hid]
  exact Snapshot.ofState_delayed h.state r.id

/-! ### All requests -/

theorem perform_agree (h : Delayed delay r r') (q : Request) (hq : q.tellsTime = false) :
    Agree (Delayed delay) (Answer.Delayed delay q) (perform q) (perform q) r r' := by
  cases q with
  | advanceClock | setClock => cases hq
  | setCooldown action player time =>
    have hnull : time.isNull := by simpa [Request.tellsTime] using hq
    exact setCooldown_agree h action player fun hx => by
      rw [if_pos hnull, if_pos hnull]
      exact hx.time
  | advanceHost ms => exact answered_agree (h.advanceHost ms)
  | setHost ms => exact done_agree (h.setHost ms)
  | timestamp =>
    obtain ⟨t, t', ht, ht', hlater⟩ := h.clock.stamps
    exact look_shown_agree h hlater (by rw [ht]; rfl) (by rw [ht']; rfl)
  | setVariable name value =>
    refine agree_get_bind ?_
    rw [h.definition]
    exact answered_agree (h.onState (agree_step
      (h.state.onVariable name fun name => h.state.setVariable name value) h.state))
  | modifyVariable name op amount =>
    refine agree_get_bind ?_
    rw [h.definition]
    exact answered_agree (h.onState (agree_step
      (h.state.onVariable name fun name => h.state.modifyVariable name _ amount) h.state))
  | getVariable name =>
    exact look_state_agree h
      (fun s => return Json.optional .number ((← name.key?).bind s.vars.get?)) fun _ _ _ _ => rfl
  | setProperty entity key value => exact setProperty_agree h entity key value
  | getEntity name =>
    exact look_state_agree h (fun s => return Json.optional .object (s.entities.get? (← name.name)))
      fun _ _ _ _ => rfl
  | getProperty entity key =>
    exact look_state_agree h (fun s => return s.property (← entity.name) (← key.name))
      fun _ _ _ _ => rfl
  | addPlayer data =>
    refine Agree.bind_same (agree_look_same rfl h) fun data _ _ h₁ => ?_
    exact shown_agree (h₁.addPlayer data)
  | removePlayer id => exact answered_agree (h.removePlayer id)
  | dropPlayer id =>
    exact answered_agree (h.change (h.state.removePlayer id).1 (h.state.removePlayer id).2)
  | updatePlayer id updates => exact updatePlayer_agree h id updates
  | getPlayer id => exact look_shown_agree h (h.state.player? id) rfl rfl
  | hasPlayer id => exact glance_agree h (congrArg Json.bool (h.state.hasPlayer id))
  | updateScore id score =>
    refine (named_agree h id).bind_same fun id _ _ h₁ => ?_
    exact done_agree (h₁.onState (agree_modify (h₁.state.updateScore id score)))
  | getScore id =>
    exact look_state_agree h (fun s => return s.scoreOf (← id.name)) fun _ _ _ _ => rfl
  | getScores => exact look_state_agree h (fun s => .ok (.object s.score)) fun _ _ _ _ => rfl
  | addLog message => exact done_agree (h.onState (agree_modify (h.state.addLog message)))
  | addEvent type message =>
    exact agree_get_bind (shown_agree
      (h.onState (agree_step (h.state.addEvent h.clock type message) h.state)))
  | getLogs => exact look_state_agree h (fun s => .ok (.list s.logs.toList)) fun _ _ _ _ => rfl
  | getEvents => exact look_shown_agree h h.state.events rfl rfl
  | checkCondition condition =>
    exact look_state_agree h (fun s => Json.bool <$> s.holds condition) fun _ _ _ _ => rfl
  | evaluateNumber condition =>
    exact look_state_agree h
      (fun s => Json.optional .float <$> Expression.number? s.context condition) fun _ _ _ _ => rfl
  | evaluateAll conditions combination =>
    refine look_agree h ?_
    dsimp only
    rw [h.state.context]
  | isShutDown => exact look_state_agree h (fun s => .ok (.bool s.isShutDown)) fun _ _ _ _ => rfl
  | apply effect =>
    refine agree_get_bind ?_
    rw [h.definition]
    exact shown_agree (h.onState (Effect.apply_agree h.state h.clock effect))
  | applyAll effects stopping =>
    refine agree_get_bind ?_
    rw [h.definition]
    exact shown_agree (h.onState (Effect.applyAll_agree h.state h.clock stopping effects))
  | act action player parameters => exact shown_agree (h.submit action player parameters)
  | submit asked => exact shown_agree (submitAll_agree h asked)
  | process action player parameters =>
    exact shown_agree (agree_modifyGet (h.process action player parameters).1
      (h.process action player parameters).2)
  | checkRequirement requirement player =>
    refine look_agree h ?_
    rw [h.definition, requirement.check_delayed h.state h.cooldowns h.clock.later player]
  | availableActions player =>
    refine look_agree h ?_
    rw [h.definition, Definition.available_delayed h.state h.cooldowns h.clock.later player]
  | history => exact agree_get_bind (showing_agree h h.dates.history)
  | playerHistory player =>
    exact agree_get_bind (showing_agree h (forall₂_asked h.dates.history player))
  | clearHistory =>
    exact alter_agree (h.redated { r.dates with history := #[] } { r'.dates with history := #[] }
      { h.dates with history := .nil })
  | recentActions count => exact recentActions_agree h count
  | allRecent => exact agree_get_bind (showing_agree h h.dates.recent)
  | clearRecent =>
    exact alter_agree (h.redated { r.dates with recent := #[] } { r'.dates with recent := #[] }
      { h.dates with recent := .nil })
  | cooldownStatus action player =>
    refine look_agree h ?_
    rw [h.definition, Definition.resting_delayed h.cooldowns h.clock.later]
  | actionCooldowns player => exact actionCooldowns_agree h player
  | clearCooldown action player => exact clearCooldown_agree h action player
  | clearPlayerCooldowns player => exact clearPlayerCooldowns_agree h player
  | clearAllCooldowns => exact alter_agree (h.withCooldowns .nil)
  | setStatus status => exact setStatus_agree h status
  | startGame => exact answered_agree (h.change h.state.start.1 h.state.start.2)
  | pauseGame => exact answered_agree (h.change h.state.pause.1 h.state.pause.2)
  | resumeGame => exact answered_agree (h.change h.state.resume.1 h.state.resume.2)
  | endGame winner => exact done_agree (h.onState (agree_modify (h.state.finish winner)))
  | incrementTick =>
    exact (h.onState (agree_modify h.state.countTick)).bind fun _ _ _ _ _ h₁ => tick_agree h₁
  | renew => exact done_agree h.renew
  | reset => exact done_agree h.reset
  | close => exact alter_agree h.close
  | start | resume => exact answered_agree (agree_modifyGet h.start.1 h.start.2)
  | stop | pause => exact alter_agree h.stop
  | frame => exact answered_agree h.frame
  | forceTick => exact (agree_modify h.tick).bind fun _ _ _ _ _ h₁ => tick_agree h₁
  | forceTicks count =>
    refine (agree_modify (h.ticks count)).bind fun _ _ _ _ _ h₁ => ?_
    split
    · exact agree_pure rfl h₁
    · exact tick_agree h₁
  | destroy => exact alter_agree h.destroy
  | resetTracking => exact alter_agree h.forgetTracking
  | setTimestep ms =>
    refine Agree.bind_same (agree_look_same rfl h) fun _ _ _ h₁ => ?_
    exact alterLoop_agree h₁ _
  | onTick key reaction => exact alterLoop_agree h (Loop.listen key reaction)
  | onError key complaint => exact alterLoop_agree h (Loop.listenForErrors key complaint)
  | removeTick key =>
    exact alterLoop_agree h fun l =>
      { l with tickListeners := Registered.remove key l.tickListeners }
  | removeError key =>
    exact alterLoop_agree h fun l =>
      { l with errorListeners := Registered.remove key l.errorListeners }
  | seen => exact seen_agree h
  | isRunning => exact glance_agree h (congrArg (fun l : Loop => Json.bool l.running) h.loop)
  | statusWord => exact glance_agree h (congrArg (fun l : Loop => Json.text l.word) h.loop)
  | currentTick => exact look_state_agree h (fun s => .ok (.int s.tick)) fun _ _ _ _ => rfl
  | stats => exact glance_agree h (congrArg Json.object (stats_same h))
  | summary | stateSummary => exact look_shown_agree h h rfl rfl
  | state => exact look_shown_agree h h.state rfl rfl
  | snapshot => exact snapshot_agree h

end Gameroom.Room
