import Gameroom.Proofs.Effect.Overload
import Gameroom.Proofs.Loop.Phases
import Gameroom.Proofs.Room.Delivery
import Gameroom.Proofs.Room.Failing

/-!
Data that stop what they are given to. Variables, players and effects take any document but whole
numbers beyond the floats, and nothing else that an effect is given ends a tick early.
-/

namespace Gameroom

open Expression (Beyond)

namespace Task
variable {σ τ α β : Type} {Q : σ → Prop} {s : σ}

/-- Where a fault ends a task, the state is as it says. -/
def StopsWhere (Q : σ → Prop) (t : Task σ α) (s : σ) : Prop :=
  ∀ fault s', t s = .error fault s' → Q s'

theorem stopsWhere_of_ok {t : Task σ α} {a : α} {s' : σ} (h : t s = .ok a s') :
    StopsWhere Q t s := by
  intro fault s'' herror
  rw [h] at herror
  cases herror

theorem StopsWhere.bind {t : Task σ α} {f : α → Task σ β} (ht : StopsWhere Q t s)
    (hf : ∀ a s', StopsWhere Q (f a) s') : StopsWhere Q (t >>= f) s := by
  intro fault s'' herror
  cases h : t s with
  | error fault' s' =>
    rw [bind_error h] at herror
    cases herror
    exact ht fault s'' h
  | ok a s' =>
    rw [bind_ok h] at herror
    exact hf a s' fault s'' herror

theorem stopsWhere_look {f : σ → Except Fault α} (h : Stops (f s) → Q s) :
    StopsWhere Q (look f) s := by
  intro fault s' herror
  unfold look at herror
  cases hf : f s with
  | ok a =>
    rw [hf] at herror
    cases herror
  | error fault' =>
    rw [hf] at herror
    cases herror
    exact h ⟨fault, hf⟩

theorem stopsWhere_step {f : σ → Except Fault (α × σ)} (h : Stops (f s) → Q s) :
    StopsWhere Q (step f) s := by
  intro fault s' herror
  unfold step at herror
  cases hf : f s with
  | ok next =>
    rw [hf] at herror
    cases herror
  | error fault' =>
    rw [hf] at herror
    cases herror
    exact h ⟨fault, hf⟩

theorem StopsWhere.on {P : τ → Prop} {part : σ → τ} {put : σ → τ → σ} {t : Task τ α}
    (ht : StopsWhere P t (part s)) (hput : ∀ p, P p → Q (put s p)) :
    StopsWhere Q (Task.on part put t) s := by
  intro fault s' herror
  unfold Task.on at herror
  cases h : t (part s) with
  | ok a p =>
    rw [h] at herror
    cases herror
  | error fault' p =>
    rw [h] at herror
    cases herror
    exact hput p (ht fault p h)

theorem stopsWhere_forEach {act : α → Task σ Unit} (items : List α)
    (h : ∀ a ∈ items, ∀ s, StopsWhere Q (act a) s) (s : σ) :
    StopsWhere Q (forEach act items) s := by
  induction items generalizing s with
  | nil => exact stopsWhere_of_ok rfl
  | cons a rest ih =>
    exact (h a List.mem_cons_self s).bind fun _ s' =>
      ih (fun b hb => h b (List.mem_cons_of_mem _ hb)) s'

theorem StopsWhere.mono {P : σ → Prop} {t : Task σ α} (h : StopsWhere P t s)
    (hPQ : ∀ s, P s → Q s) : StopsWhere Q t s := fun fault s' herror => hPQ s' (h fault s' herror)

end Task

/-! ### Ticks -/

section Ticks
variable {d : Definition} {now : Float}

/-- One of several effects would go beyond the floats. -/
def Effect.SomeOverloads (d : Definition) (es : List Effect) (s : State) : Prop :=
  ∃ e ∈ es, e.Overloads d s

def Source.Empty (source : Source) : Prop := ∃ place, source = .cycle [] place

/-- What ends a tick early: a value of the state that stops conditions, an effect of a rule or of a
random event that goes beyond the floats, or no samples. -/
inductive Pulse.Overloaded (d : Definition) (p : Pulse) : Prop
  | state (h : p.state.Overflows)
  | rule {r : Rule} (hr : r ∈ d.rules) (h : Effect.SomeOverloads d r.effects p.state)
  | event {e : RandomEvent} (he : e ∈ d.randomEvents)
      (h : Effect.SomeOverloads d e.effects p.state)
  | source (h : p.source.Empty)

theorem Effect.apply_stopsWhere {e : Effect} (he : Schema.Made Effect.read e)
    (hnow : Timestamp.InYears now) (s : State) :
    (e.apply d now).StopsWhere (e.Overloads d) s := by
  intro fault s' herror
  have hatomic := e.apply_atomic d now s
  rw [Task.Atomic, herror] at hatomic
  subst hatomic
  exact (apply_stopped_iff he hnow).1 (Task.stopped_iff.2 ⟨fault, _, herror⟩)

theorem Effect.applyAll_stopsWhere {es : List Effect} (hes : ∀ e ∈ es, Schema.Made Effect.read e)
    (hnow : Timestamp.InYears now) (stopping : Bool) (s : State) :
    (applyAll d now stopping es).StopsWhere (SomeOverloads d es) s := by
  induction es generalizing s with
  | nil => exact Task.stopsWhere_of_ok rfl
  | cons e rest ih =>
    rw [List.forall_mem_cons] at hes
    have hhead : ∀ s, e.Overloads d s → SomeOverloads d (e :: rest) s :=
      fun s h => ⟨e, List.mem_cons_self, h⟩
    have htail : ∀ s, SomeOverloads d rest s → SomeOverloads d (e :: rest) s :=
      fun s ⟨e', he', h⟩ => ⟨e', List.mem_cons_of_mem _ he', h⟩
    refine ((apply_stopsWhere hes.1 hnow s).mono hhead).bind fun outcome s₁ => ?_
    split
    · exact Task.stopsWhere_of_ok rfl
    · exact ((ih hes.2 s₁).mono htail).bind fun _ _ => Task.stopsWhere_of_ok rfl

theorem State.holds_stops {condition : Json} {s : State} (h : Stops (s.holds condition)) :
    s.Overflows := by
  obtain ⟨fault, h⟩ := h
  exact overflows_iff.1 (Expression.condition_error_iff.1 h).2.1

theorem State.meets_stops {condition : Option String} {s : State} (h : Stops (s.meets condition)) :
    s.Overflows := by
  unfold meets at h
  split at h
  · split_ifs at h
    · exact absurd h (Stops.not_ok true)
    · exact holds_stops h
  · exact absurd h (Stops.not_ok true)

theorem Source.sample_stops {source : Source} (h : Stops source.sample) : source.Empty := by
  obtain ⟨fault, h⟩ := h
  cases source with
  | generator t => cases h
  | cycle samples place =>
    rw [sample] at h
    split at h
    · cases h
    · rename_i hnone
      -- A place within a list that is not empty has a sample.
      have hlength : samples.length ≤ place % samples.length := List.getElem?_eq_none_iff.1 hnone
      have hempty : samples.length = 0 := by
        by_contra hpos
        exact absurd (Nat.mod_lt place (Nat.pos_of_ne_zero hpos)) (by omega)
      exact ⟨place, by rw [List.length_eq_zero_iff.1 hempty]⟩

def Rule.Overloads (d : Definition) (r : Rule) (s : State) : Prop :=
  s.Overflows ∨ Effect.SomeOverloads d r.effects s

theorem Rule.run_stopsWhere {r : Rule} (hr : r.Parts) (hnow : Timestamp.InYears now) (s : State) :
    (r.run d now).StopsWhere (r.Overloads d) s := by
  refine (Task.stopsWhere_look fun h => .inl (State.meets_stops h)).bind fun meets s₁ => ?_
  split
  · exact ((Effect.applyAll_stopsWhere hr.effects hnow false s₁).mono fun _ => .inr).bind
      fun _ _ => Task.stopsWhere_of_ok rfl
  · exact Task.stopsWhere_of_ok rfl

theorem Rule.runOnTick_stopsWhere {r : Rule} (hr : r.Parts) (hnow : Timestamp.InYears now)
    (tick : Nat) (s : State) : (r.runOnTick d now tick).StopsWhere (r.Overloads d) s := by
  unfold runOnTick
  split
  · exact run_stopsWhere hr hnow s
  · exact Task.stopsWhere_of_ok rfl

namespace Pulse

theorem overloaded_of_rule {r : Rule} (hr : r ∈ d.rules) {p : Pulse}
    (h : r.Overloads d p.state) : p.Overloaded d := h.elim .state (.rule hr)

theorem applied_stopsWhere {es : List Effect} (hes : ∀ e ∈ es, Schema.Made Effect.read e)
    (hnow : Timestamp.InYears now)
    (h : ∀ p : Pulse, Effect.SomeOverloads d es p.state → p.Overloaded d) (p : Pulse) :
    Task.StopsWhere (Overloaded d)
      (do let _ ← onState (Effect.applyAll d now false es) : Task Pulse Unit) p :=
  ((Effect.applyAll_stopsWhere hes hnow false p.state).on
      fun s hs => h { p with state := s } hs).bind fun _ _ => Task.stopsWhere_of_ok rfl

theorem beginning_stopsWhere (hd : d.Parts) (hnow : Timestamp.InYears now) (p : Pulse) :
    (beginning d now).StopsWhere (Overloaded d) p := by
  refine (Task.stopsWhere_of_ok rfl : Task.StopsWhere _ (onState (modify State.countTick)) p).bind
    fun _ p₁ => ?_
  refine (Task.stopsWhere_of_ok rfl : Task.StopsWhere _ get p₁).bind fun p₂ p₃ => ?_
  -- Some rule of the tick stopped it.
  refine Task.StopsWhere.on (P := fun s => ∃ r ∈ d.rules, r.Overloads d s) ?_ ?_
  · refine Task.stopsWhere_forEach _ (fun r hr s => ?_) _
    have hmem : r ∈ d.rules := List.mem_of_mem_filter hr
    exact (Rule.runOnTick_stopsWhere (hd.rules r hmem) hnow _ s).mono fun _ h => ⟨r, hmem, h⟩
  · rintro s ⟨r, hr, h⟩
    exact overloaded_of_rule hr h

theorem runOnEdge_stopsWhere (hd : d.Parts) (hnow : Timestamp.InYears now) (place : Nat) {r : Rule}
    (hr : r ∈ d.rules) (p : Pulse) : (r.runOnEdge d now place).StopsWhere (Overloaded d) p := by
  unfold Rule.runOnEdge
  split
  · exact Task.stopsWhere_of_ok rfl
  · refine (Task.stopsWhere_look fun h => .state (State.holds_stops h)).bind fun holds p₁ => ?_
    refine (Task.stopsWhere_of_ok rfl : Task.StopsWhere _ (turn place holds) p₁).bind
      fun runs p₂ => ?_
    split
    · exact applied_stopsWhere (hd.rules r hr).effects hnow (fun _ => .rule hr) p₂
    · exact Task.stopsWhere_of_ok rfl

theorem runOnEdges_stopsWhere (hd : d.Parts) (hnow : Timestamp.InYears now) (place : Nat)
    {rules : List Rule} (hrules : ∀ r ∈ rules, r ∈ d.rules) (p : Pulse) :
    (Rule.runOnEdges d now place rules).StopsWhere (Overloaded d) p := by
  induction rules generalizing place p with
  | nil => exact Task.stopsWhere_of_ok rfl
  | cons r rest ih =>
    rw [List.forall_mem_cons] at hrules
    exact (runOnEdge_stopsWhere hd hnow place hrules.1 p).bind fun _ p₁ =>
      ih (place + 1) hrules.2 p₁

theorem settle_stopsWhere (hd : d.Parts) (hnow : Timestamp.InYears now) {e : RandomEvent}
    (he : e ∈ d.randomEvents) (sample : Number) (p : Pulse) :
    (settle d now e sample).StopsWhere (Overloaded d) p := by
  cases h : happens now e sample p with
  | error fault =>
    intro fault' p' herror
    rw [settle_fault h] at herror
    cases herror
    unfold happens at h
    split_ifs at h
    exact .state (State.overflows_iff.1 (Expression.all_error_iff.1 h).2.1)
  | ok happened =>
    cases happened with
    | false => exact Task.stopsWhere_of_ok (settle_not h)
    | true =>
      intro fault p' herror
      rw [settle_happens h] at herror
      exact applied_stopsWhere (hd.randomEvents e he).effects hnow (fun _ => .event he)
        (p.fired e.name now) fault p' herror

theorem runEvents_stopsWhere (hd : d.Parts) (hnow : Timestamp.InYears now) (gated : Bool)
    (p : Pulse) : (runEvents d now gated).StopsWhere (Overloaded d) p := by
  cases h : gated && p.state.isShutDown with
  | true => exact Task.stopsWhere_of_ok (runEvents_shut h)
  | false =>
    intro fault p' herror
    rw [runEvents_open h] at herror
    refine Task.stopsWhere_forEach d.randomEvents (fun e he p => ?_) p fault p' herror
    have hdraw : draw.StopsWhere (Overloaded d) p :=
      (Task.stopsWhere_step Source.sample_stops).on fun _ h => Overloaded.source h
    rw [runEvent_eq]
    exact hdraw.bind fun sample p₁ => settle_stopsWhere hd hnow he sample p₁

theorem run_stopsWhere (hd : d.Parts) (hnow : Timestamp.InYears now) (gated : Bool) (p : Pulse) :
    (run d now gated).StopsWhere (Overloaded d) p := by
  rw [run_eq]
  have hlead : (lead d now).StopsWhere (Overloaded d) p :=
    (beginning_stopsWhere hd hnow p).bind fun _ p₁ =>
      runOnEdges_stopsWhere hd hnow 0 (fun _ => id) p₁
  exact hlead.bind fun _ p₂ => runEvents_stopsWhere hd hnow gated p₂

end Pulse
end Ticks

/-! ### Requests -/

namespace Room
variable {r : Room} {q : Request} {IsAnswer : Answer → Prop} {stop : Prop}

/-- A request is answered unless something stops it. -/
structure ReturnsUnless (r : Room) (q : Request) (IsAnswer : Answer → Prop) (stop : Prop) :
    Prop where
  returns : ¬stop → ∃ a r', perform q r = .ok a r' ∧ IsAnswer a
  stops : stop → ∃ fault r', perform q r = .error fault r'

theorem ReturnsUnless.of_stopped (hstop : (perform q).Stopped r ↔ stop)
    (hanswer : (perform q).Answers IsAnswer r) : ReturnsUnless r q IsAnswer stop := by
  refine ⟨fun hnot => ?_, fun h => Task.stopped_iff.1 (hstop.2 h)⟩
  cases h : perform q r with
  | error fault r' => exact absurd (hstop.1 (Task.stopped_iff.2 ⟨fault, r', h⟩)) hnot
  | ok a r' => exact ⟨a, r', rfl, hanswer a r' h⟩

/-- What is told of a new player cannot be taken: it is neither an object nor nothing, or a score
in it lies beyond the floats. -/
def Unplayable : Json → Prop
  | .object fields => Beyond (Json.field fields "score")
  | value => value.truthy

/-- What is to change about a player cannot be taken: it is no object, or a score in it lies beyond
the floats. -/
def Unfit : Json → Prop
  | .object fields => Beyond (Json.field fields "score")
  | _ => True

def IsPlayer (a : Answer) : Prop := ∃ p : Player, a = .document p.toJson

def IsOutcomeOf (e : Effect) (a : Answer) : Prop := ∃ v, a = .document (shownOutcome ⟨e, v⟩)

theorem onState_stopped_iff {α : Type} {t : Task State α} :
    (onState t).Stopped r ↔ t.Stopped r.state := Task.stopped_on_iff

theorem ReturnsUnless.of_step {f : Room → State → Except Fault (Bool × State)}
    (hq : perform q = do
      let r ← get
      return .truth (← onState (Task.step (f r))))
    (hstop : Stops (f r r.state) ↔ stop) : ReturnsUnless r q IsTruth stop := by
  refine .of_stopped ?_ ?_
  · rw [hq, ← hstop, ← Task.stopped_step_iff, ← onState_stopped_iff]
    exact Task.stopped_bind_iff_left fun _ _ => Task.not_stopped_of_ok rfl
  · rw [hq]
    exact Task.answers_bind fun _ _ _ => Task.answers_bind fun done _ _ =>
      Task.answers_pure ⟨done, rfl⟩

theorem setVariable_returnsUnless (r : Room) (name : String) (value : Json) :
    ReturnsUnless r (.setVariable (.text name) value) IsTruth
      (r.definition.vars.has name ∧ Beyond value) :=
  .of_step (f := fun r => State.onVariable (.text name) fun name =>
    State.setVariable r.definition name value) rfl State.setVariable_stops_iff

theorem modifyVariable_returnsUnless (r : Room) (name : String) (op amount : Json) :
    ReturnsUnless r (.modifyVariable (.text name) op amount) IsTruth
      (r.definition.vars.has name ∧ ∃ o n, op.text?.bind Operation.ofName? = some o ∧ o ≠ .set ∧
        amount = .number n ∧ o.Overflows (r.state.operand name) n) :=
  .of_step (f := fun r => State.onVariable (.text name) fun name =>
    State.modifyVariable r.definition name (op.text?.bind Operation.ofName?) amount) rfl
    State.modifyVariable_stops_iff

theorem score_stops_iff {fields : Table Json} :
    Stops (isScore ((fields.get? "score").getD (.int 0))) ↔ Beyond (Json.field fields "score") := by
  rw [isScore_stops, Json.field]
  cases fields.get? "score" with
  | some score => rfl
  | none =>
    refine iff_of_false ?_ fun ⟨_, h, _⟩ => nomatch h
    rintro ⟨_, ⟨⟩, h⟩
    exact absurd h (by decide +kernel)

theorem addPlayer_stopped_iff {fields : Table Json} :
    (addPlayer fields).Stopped r ↔ Beyond (Json.field fields "score") := by
  rw [← score_stops_iff]
  cases hscore : isScore ((fields.get? "score").getD (.int 0)) with
  | error fault =>
    refine iff_of_true (Task.stopped_iff.2 ⟨fault, { r with ids := r.ids + 1 }, ?_⟩) (.error fault)
    simp only [addPlayer, bind, EStateM.bind, modify, modifyGet, MonadStateOf.modifyGet,
      EStateM.modifyGet, get, getThe, MonadStateOf.get, EStateM.get, Task.look, hscore]
  | ok scored =>
    refine iff_of_false ?_ (Stops.not_ok scored)
    rcases addPlayer_cases fields r with ⟨fault, h⟩ | ⟨p, -, -, -, h⟩
    · simp only [addPlayer, bind, EStateM.bind, modify, modifyGet, MonadStateOf.modifyGet,
        EStateM.modifyGet, get, getThe, MonadStateOf.get, EStateM.get, Task.look, hscore, change,
        reduceCtorEq] at h
    · exact Task.not_stopped_of_ok h

theorem addPlayer_returnsUnless (r : Room) (data : Json) :
    ReturnsUnless r (.addPlayer data) IsPlayer (Unplayable data) := by
  refine .of_stopped ?_ (Task.answers_bind fun _ _ _ => Task.answers_bind fun p _ _ =>
    Task.answers_pure ⟨p, rfl⟩)
  refine Task.stopped_look_bind_iff.trans ?_
  have hadd (fields : Table Json) : Task.Stopped (do
      return .document (← addPlayer fields).toJson : Task Room Answer) r ↔
        Beyond (Json.field fields "score") :=
    (Task.stopped_bind_iff_left fun _ _ => Task.not_stopped_of_ok rfl).trans addPlayer_stopped_iff
  cases data with
  | object fields =>
    refine (or_iff_right (Stops.not_ok fields)).trans
      ⟨?_, fun h => ⟨fields, rfl, (hadd fields).2 h⟩⟩
    rintro ⟨_, ⟨⟩, h⟩
    exact (hadd fields).1 h
  | _ =>
    -- What is no object tells of nobody if it stands for nothing.
    have hnobody : ¬Beyond (Json.field [] "score") := fun ⟨_, h, _⟩ => nomatch h
    unfold Unplayable playerData
    dsimp only
    split_ifs with htruthy
    · exact iff_of_true (.inl (.error _)) htruthy
    · refine iff_of_false ?_ htruthy
      rintro (h | ⟨_, ⟨⟩, h⟩)
      · exact Stops.not_ok _ h
      · exact hnobody ((hadd []).1 h)

theorem updatePlayer_stopped_iff {now : Float} {id : Json} {updates : Table Json} {s : State}
    (h : s.hasPlayer id) :
    (State.updatePlayer now id updates).Stopped s ↔ Beyond (Json.field updates "score") := by
  obtain ⟨p, hp⟩ := Option.isSome_iff_exists.1 h
  rw [← isScore_stops, Task.stopped_iff]
  simp only [State.updatePlayer, hp]
  cases isScore (Json.field updates "score") with
  | error fault => exact iff_of_true ⟨fault, _, rfl⟩ (.error fault)
  | ok scored => exact iff_of_false nofun (Stops.not_ok scored)

theorem updatePlayer_returnsUnless (r : Room) (id updates : Json) :
    ReturnsUnless r (.updatePlayer id updates) IsTruth (r.state.hasPlayer id ∧ Unfit updates) := by
  refine .of_stopped ?_ (Task.answers_bind fun r₁ r₂ _ => ?_)
  · have hlook : (perform (.updatePlayer id updates)).Stopped r ↔
        Task.Stopped (if !r.state.hasPlayer id then pure (.truth false) else do
          let updates ← Task.look fun _ => updatesOf updates
          return .truth (← onState (State.updatePlayer r.clock id updates)) : Task Room Answer) r :=
      Iff.rfl
    rw [hlook]
    cases h : r.state.hasPlayer id with
    | false => exact iff_of_false (Task.not_stopped_of_ok rfl) fun h => Bool.false_ne_true h.1
    | true =>
      have hupdate (fields : Table Json) : Task.Stopped (do
          return .truth (← onState (State.updatePlayer r.clock id fields)) : Task Room Answer) r ↔
            Beyond (Json.field fields "score") :=
        (Task.stopped_bind_iff_left fun _ _ => Task.not_stopped_of_ok rfl).trans
          (onState_stopped_iff.trans (updatePlayer_stopped_iff h))
      refine Task.stopped_look_bind_iff.trans (Iff.trans ?_ (and_iff_right rfl).symm)
      cases updates with
      -- Fields always read, so only the score among them can stop the update.
      | object fields =>
        refine (or_iff_right (Stops.not_ok fields)).trans
          ⟨?_, fun h => ⟨fields, rfl, (hupdate fields).2 h⟩⟩
        rintro ⟨_, ⟨⟩, h⟩
        exact (hupdate fields).1 h
      | _ => exact iff_of_true (.inl (.error _)) trivial
  · split
    · exact Task.answers_pure ⟨false, rfl⟩
    · exact Task.answers_bind fun _ _ _ => Task.answers_bind fun done _ _ =>
        Task.answers_pure ⟨done, rfl⟩

theorem apply_returnsUnless {e : Effect} (he : Schema.Made Effect.read e)
    (hnow : Timestamp.InYears r.clock) :
    ReturnsUnless r (.apply e) (IsOutcomeOf e) (e.Overloads r.definition r.state) := by
  refine .of_stopped ?_ ?_
  · rw [← Effect.apply_stopped_iff he hnow, ← onState_stopped_iff]
    exact Task.stopped_bind_iff_left fun _ _ => Task.not_stopped_of_ok rfl
  · refine Task.answers_bind fun r₁ r₂ _ => Task.answers_bind fun o r₃ ho => Task.answers_pure ?_
    obtain ⟨s, ho, -⟩ := Task.ok_of_on ho
    obtain ⟨v, s₁, -, ho⟩ := Task.ok_of_bind ho
    cases ho
    exact ⟨v, rfl⟩

theorem pulsed_overloaded {r : Room} (hr : r.definition.Parsed)
    (hnow : Timestamp.InYears r.clock) {fault : Fault} (h : r.worked = .error fault) :
    r.pulsed.Overloaded r.definition := by
  unfold worked at h
  unfold pulsed
  cases hrun : Pulse.run r.definition r.clock r.gated r.pulse with
  | ok done p =>
    rw [Task.outcome_ok hrun] at h
    cases h
  | error fault' p =>
    rw [Task.outcome_error hrun]
    exact Pulse.run_stopsWhere hr.parts hnow r.gated r.pulse fault' p hrun

/-- Whatever variables, players and effects are given, the room answers, unless it is a whole number
beyond the floats, or a player is told of by what is no object. What ends the work of a tick early
is such a number too, or that there are no samples; no other effect keeps those after it from
running. -/
theorem returns_unless_overload {r : Room} (hr : r.definition.Parsed)
    (hnow : Timestamp.InYears r.clock) :
    (∀ name value, ReturnsUnless r (.setVariable (.text name) value) IsTruth
        (r.definition.vars.has name ∧ Beyond value)) ∧
      (∀ name op amount, ReturnsUnless r (.modifyVariable (.text name) op amount) IsTruth
        (r.definition.vars.has name ∧ ∃ o n, op.text?.bind Operation.ofName? = some o ∧ o ≠ .set ∧
          amount = .number n ∧ o.Overflows (r.state.operand name) n)) ∧
      (∀ data, ReturnsUnless r (.addPlayer data) IsPlayer (Unplayable data)) ∧
      (∀ id updates, ReturnsUnless r (.updatePlayer id updates) IsTruth
        (r.state.hasPlayer id ∧ Unfit updates)) ∧
      (∀ e, Schema.Made Effect.read e → ReturnsUnless r (.apply e) (IsOutcomeOf e)
        (e.Overloads r.definition r.state)) ∧
      ∀ fault, r.worked = .error fault → r.pulsed.Overloaded r.definition :=
  ⟨setVariable_returnsUnless r, modifyVariable_returnsUnless r, addPlayer_returnsUnless r,
    updatePlayer_returnsUnless r, fun _ he => apply_returnsUnless he hnow,
    fun _ h => pulsed_overloaded hr hnow h⟩

/-- The fields of a game with a score beyond the floats, in a rule before another one. -/
def spill : Table Json :=
  [("meta", .object []),
    ("vars", .object [("level", .object [("value", .int 3), ("min", .int 0), ("max", .int 10)])]),
    ("rules", .list [
      .object [("trigger", .text "tick"), ("effects", .list [
        .object [("type", .text "update_score"), ("playerId", .text "one"),
          ("value", .int (2 ^ 1024))]])],
      .object [("trigger", .text "tick"), ("effects", .list [
        .object [("type", .text "add_log"), ("message", .text "calm")]])]])]

theorem returns_unless_overload_spill :
    ∃ r : Room, r.definition.Parsed ∧ Timestamp.InYears r.clock ∧
      (∃ a r', perform (.setVariable (.text "level") (.text "high")) r = .ok a r' ∧ IsTruth a) ∧
      r.worked = .error .intTooLarge ∧ r.pulsed.Overloaded r.definition := by
  obtain ⟨d, hd⟩ : ∃ d, Definition.ofFields spill = .ok d := ⟨_, rfl⟩
  obtain ⟨r, hr⟩ : ∃ r, create d .still = .ok r := by
    cases hd
    exact ⟨_, rfl⟩
  have hparsed : r.definition.Parsed := by
    cases hd
    cases hr
    exact ⟨spill, rfl⟩
  have hyears : Timestamp.InYears r.clock := by
    cases hd
    cases hr
    decide +kernel
  have hworked : r.worked = .error .intTooLarge := by
    cases hd
    cases hr
    decide +kernel
  obtain ⟨hset, -, -, -, -, htick⟩ := returns_unless_overload hparsed hyears
  have hfits : ¬(r.definition.vars.has "level" ∧ Beyond (.text "high")) :=
    fun ⟨_, _, h, _⟩ => nomatch h
  exact ⟨r, hparsed, hyears, (hset "level" (.text "high")).returns hfits, hworked,
    htick _ hworked⟩

/-- A value beyond the floats is not held between the bounds of its variable but stops the change,
and an effect with such a score keeps the rule after it from writing its line. -/
theorem overflow_stops_change :
    ∃ d r, d.Parsed ∧ InPlay d r ∧ Timestamp.InYears r.clock ∧
      (perform (.setVariable (.text "level") (.int (2 ^ 1024)))).Stopped r ∧
      r.worked = .error .intTooLarge ∧ r.tick.state.logs = #[] := by
  obtain ⟨d, hd⟩ : ∃ d, Definition.ofFields spill = .ok d := ⟨_, rfl⟩
  obtain ⟨r, hr⟩ : ∃ r, create d .still = .ok r := by
    cases hd
    exact ⟨_, rfl⟩
  refine ⟨d, r, ⟨spill, hd⟩, ⟨.still, r, [], hr, .refl _⟩, ?_⟩
  cases hd
  cases hr
  refine ⟨by decide +kernel, ?_, by decide +kernel, Array.size_eq_zero_iff.1 (by decide +kernel)⟩
  refine Task.stopped_iff.2 ((setVariable_returnsUnless _ "level" _).stops ⟨by decide, _, rfl, ?_⟩)
  decide +kernel

end Room
end Gameroom
