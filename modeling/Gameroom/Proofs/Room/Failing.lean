import Gameroom.Proofs.Definition.Worded
import Gameroom.Proofs.Room.Refusal

/-!
Which effects can fail. Of the effects that definitions hold, a score that is no finite number fails
in every state, and so does an event without a message. All others are applied or skipped, so an
action without such effects never ends in the failure of an effect.
-/

namespace Gameroom

/-- A finite number: a whole number, or a float that is neither infinite nor no number. -/
def Json.IsFinite : Json → Prop
  | .number (.int _) => True
  | .number (.float x) => x.isFinite
  | _ => False

theorem Json.isScore_iff {value : Json} {scored : Bool} (h : isScore value = .ok scored) :
    scored = true ↔ value.IsFinite := by
  cases value with
  | number n =>
    obtain ⟨x, hx, rfl⟩ := ok_of_map h
    cases n with
    | float y =>
      cases hx
      rfl
    | int i =>
      rw [Number.toFloat] at hx
      split_ifs at hx with hfinite
      cases hx
      exact iff_of_true hfinite trivial
  | _ =>
    cases h
    exact iff_of_false Bool.false_ne_true (fun h => h)

/-- Whatever a task answers from a state is as it should be. -/
def Task.Answers {σ α : Type} (P : α → Prop) (t : Task σ α) (s : σ) : Prop :=
  ∀ a s', t s = .ok a s' → P a

namespace Task
variable {σ α β : Type} {P : α → Prop} {s : σ}

theorem answers_pure {a : α} (h : P a) : Answers P (pure a) s := by
  rintro _ _ ⟨⟩
  exact h

theorem answers_bind {t : Task σ β} {f : β → Task σ α}
    (h : ∀ b s', t s = .ok b s' → Answers P (f b) s') : Answers P (t >>= f) s := by
  intro a s'' ha
  obtain ⟨b, s', hb, ha⟩ := ok_of_bind ha
  exact h b s' hb a s'' ha

end Task

namespace Verdict

def isFailed : Verdict → Bool
  | .failed _ => true
  | _ => false

end Verdict

namespace Effect
variable {d : Definition} {now : Float} {s : State}

/-- An effect that fails in every state: a score that is no finite number, or an event without a
message. -/
def Faulty : Effect → Prop
  | updateScore _ value => ¬value.IsFinite
  | addEvent _ line => line = .null
  | _ => False

theorem verdictOn_unfailing {target : Json} {reason : Skip}
    {change : String → State → Except Fault (Bool × State)} :
    Task.Answers (·.isFailed = false) (verdictOn target reason change) s := by
  refine Task.answers_bind fun done s' _ => ?_
  cases done with
  | true => exact Task.answers_bind fun _ _ _ => Task.answers_pure rfl
  | false => exact Task.answers_pure rfl

theorem applySetVar_unfailing (target value : Json) :
    Task.Answers (·.isFailed = false) (applySetVar d target value) s := by
  unfold applySetVar
  split
  · exact Task.answers_pure rfl
  · refine Task.answers_bind fun resolved s' _ => ?_
    split
    · exact Task.answers_pure rfl
    · exact verdictOn_unfailing

theorem applyModifyVar_unfailing (target : Json) (op : Option Operation) (value : Json) :
    Task.Answers (·.isFailed = false) (applyModifyVar d target op value) s := by
  unfold applyModifyVar
  split
  · refine Task.answers_bind fun amount s' _ => ?_
    split
    · exact Task.answers_pure rfl
    · exact verdictOn_unfailing
  · exact Task.answers_pure rfl

theorem applySetEntity_unfailing (target value : Json) :
    Task.Answers (·.isFailed = false) (applySetEntity target value) s := by
  unfold applySetEntity
  split
  · exact Task.answers_bind fun _ _ _ => Task.answers_pure rfl
  · exact Task.answers_pure rfl

theorem applyUpdateScore_answers {player : Json} (value : Json) (hplayer : player.truthy = true) :
    Task.Answers (fun v => v.isFailed = true ↔ ¬value.IsFinite)
      (applyUpdateScore player value) s := by
  unfold applyUpdateScore
  rw [hplayer]
  refine Task.answers_bind fun scored s' hscored => ?_
  have hfinite := Json.isScore_iff (Task.ok_of_look hscored).1
  cases scored with
  | true =>
    refine Task.answers_bind fun id _ _ => Task.answers_bind fun _ _ _ => Task.answers_pure ?_
    simpa [Verdict.isFailed] using hfinite
  | false =>
    refine Task.answers_pure ?_
    simpa [Verdict.isFailed] using hfinite

theorem applyAddLog_unfailing {line : Json} (hline : line.truthy = true) :
    Task.Answers (·.isFailed = false) (applyAddLog line) s := by
  unfold applyAddLog
  rw [hline]
  exact Task.answers_bind fun _ _ _ => Task.answers_pure rfl

theorem applyAddEvent_answers {type line : Json} (htype : type.truthy = true)
    (hline : line = .null ∨ line.Tidy) :
    Task.Answers (fun v => v.isFailed = true ↔ line = .null) (applyAddEvent now type line) s := by
  unfold applyAddEvent
  rcases hline with rfl | hline
  · rw [htype]
    exact Task.answers_pure (iff_of_true rfl rfl)
  · have hne : line ≠ .null := by
      rintro rfl
      cases hline.truthy
    rw [htype, hline.truthy]
    exact Task.answers_bind fun _ _ _ => Task.answers_pure (iff_of_false Bool.false_ne_true hne)

theorem ofName?_isSome : ∀ status ∈ statuses, (Status.ofName? status).isSome := by decide

theorem applySetStatus_unfailing {status : String} (h : status ∈ statuses) :
    Task.Answers (·.isFailed = false) (applySetStatus (.text status)) s := by
  obtain ⟨next, hnext⟩ := Option.isSome_iff_exists.1 (ofName?_isSome status h)
  unfold applySetStatus
  rw [Status.ofJson?, hnext]
  refine Task.answers_bind fun moved s' _ => ?_
  cases moved <;> exact Task.answers_pure rfl

/-- An effect as documents describe it fails exactly if it is faulty, whatever the state. -/
theorem WellFormed.verdict_answers {e : Effect} (h : e.WellFormed) :
    Task.Answers (fun v => v.isFailed = true ↔ e.Faulty) (e.verdict d now) s := by
  have hunfailing {t : Task State Verdict} (ht : Task.Answers (·.isFailed = false) t s) :
      Task.Answers (fun v => v.isFailed = true ↔ False) t s :=
    fun v s' hv => iff_of_false (by rw [ht v s' hv]; exact Bool.false_ne_true) id
  cases e with
  | setVar target value => exact hunfailing (applySetVar_unfailing target value)
  | modifyVar target op value => exact hunfailing (applyModifyVar_unfailing target op value)
  | setEntity target value => exact hunfailing (applySetEntity_unfailing target value)
  | triggerEvent | message => exact hunfailing (Task.answers_pure rfl)
  | updateScore player value => exact applyUpdateScore_answers value h.truthy
  | addLog line => exact hunfailing (applyAddLog_unfailing h.truthy)
  | addEvent type line => exact applyAddEvent_answers h.1.truthy h.2
  | setStatus status =>
    obtain ⟨name, hname, rfl⟩ := h
    exact hunfailing (applySetStatus_unfailing hname)
  | other kind => exact h.elim

theorem apply_failed_iff {e : Effect} (he : Schema.Made read e) {o : Outcome} {s' : State}
    (h : e.apply d now s = .ok o s') : o.failed = true ↔ e.Faulty := by
  obtain ⟨v, s₁, hv, h⟩ := Task.ok_of_bind h
  cases h
  have hanswers := (read_wellFormed he).verdict_answers v s' hv
  cases v <;> exact hanswers

theorem StopsAt.faulty {effects : List Effect} {s' : State} {cause : EffectFailure}
    {outcomes : List Outcome} (heffects : ∀ e ∈ effects, Schema.Made read e)
    (h : StopsAt d now effects s s' cause outcomes) : ∃ e ∈ effects, e.Faulty := by
  obtain ⟨before, failing, after, done, rfl, -, -, happly, -⟩ := h
  have hmem : failing ∈ before ++ failing :: after := by simp
  exact ⟨failing, hmem, (apply_failed_iff (heffects failing hmem) happly).1 rfl⟩

end Effect

namespace Outcome

theorem applied_or_skipped {o : Outcome} (h : o.failed = false) :
    (∃ news, o.verdict = .applied news) ∨ ∃ reason, o.verdict = .skipped reason := by
  obtain ⟨e, v⟩ := o
  cases v with
  | applied news => exact .inl ⟨news, rfl⟩
  | skipped reason => exact .inr ⟨reason, rfl⟩
  | failed cause => cases h

end Outcome

namespace Room

theorem faulty_of_process {r : Room} (hr : r.definition.Parsed) {action player parameters : Json}
    {failure : Failure} (h : (process action player parameters r).1.failure? = some failure)
    (hcode : failure.code = "EFFECT_ERROR") :
    ∃ name a, action = .text name ∧ r.definition.action? name = some a ∧
      ∃ e ∈ a.effects, e.Faulty := by
  rcases process_failed h with ⟨fault, rfl⟩ | ⟨b, hb, -⟩
  · simp [Failure.code] at hcode
  · obtain ⟨hleaves, -⟩ := Action.attempt_failed hb
    cases failure with
    | effect cause outcomes =>
      obtain ⟨name, a, hname, ha, hstops⟩ := hleaves
      have hparts := hr.parts.actions a (List.mem_of_find?_eq_some ha)
      exact ⟨name, a, hname, ha, hstops.faulty hparts.effects⟩
    | _ => simp [Failure.code] at hcode

/-- Whatever effect a document describes and whatever the state: where applying it ends, it has
failed exactly if it is faulty, and any other effect is applied or skipped. So an action ends in the
failure of an effect only if one of its effects is faulty. -/
theorem fails_iff_faulty :
    (∀ value path e, Effect.read value path = .ok e →
      ∀ d now s o s', e.apply d now s = .ok o s' → (o.failed = true ↔ e.Faulty) ∧
        (¬e.Faulty → (∃ news, o.verdict = .applied news) ∨ ∃ reason, o.verdict = .skipped reason)) ∧
    ∀ (r : Room) name a, r.definition.Parsed → r.definition.action? name = some a →
      (∀ e ∈ a.effects, ¬e.Faulty) → ∀ player parameters failure,
        (process (.text name) player parameters r).1.failure? = some failure →
          failure.code ≠ "EFFECT_ERROR" := by
  refine ⟨fun value path e he d now s o s' happly => ?_, ?_⟩
  · have hiff := Effect.apply_failed_iff ⟨value, path, he⟩ happly
    refine ⟨hiff, fun hfaulty => Outcome.applied_or_skipped ?_⟩
    rw [← Bool.not_eq_true, hiff]
    exact hfaulty
  · intro r name a hr ha hsafe player parameters failure hfailure hcode
    obtain ⟨name', a', hname, ha', e, he, hfaulty⟩ := faulty_of_process hr hfailure hcode
    cases hname
    rw [ha] at ha'
    cases ha'
    exact hsafe e he hfaulty

/-- The fields of a game with a score that is too large to be looked at, and an event without a
message. -/
def vault : Table Json :=
  [("meta", .object []), ("vars", .object []),
    ("actions", .list [
      .object [("name", .text "vault"), ("effects", .list [
        .object [("type", .text "set_var"), ("target", .text "height"), ("value", .text "1 /")],
        .object [("type", .text "update_score"), ("player_id", .text "one"),
          ("value", .int (2 ^ 1024))]])],
      .object [("name", .text "bow"), ("effects", .list [
        .object [("type", .text "add_event"), ("eventType", .text "bow")]])]])]

theorem fails_iff_faulty_vault :
    ∃ (r : Room) (a : Action) (e : Effect) (o : Outcome) (failure : Failure),
      r.definition.Parsed ∧ r.definition.action? "vault" = some a ∧ (∀ e ∈ a.effects, ¬e.Faulty) ∧
      (process (.text "vault") (.text (playerId 1)) .null r).1.failure? = some failure ∧
      failure.code = "INTERNAL_ERROR" ∧ failure.code ≠ "EFFECT_ERROR" ∧
      Effect.read (.object [("type", .text "add_event"), ("eventType", .text "bow")]) "" = .ok e ∧
      (∃ s', e.apply r.definition r.clock r.state = .ok o s') ∧ o.failed = true ∧ e.Faulty := by
  obtain ⟨d, hd⟩ : ∃ d, Definition.ofFields vault = .ok d := ⟨_, rfl⟩
  obtain ⟨r, hr⟩ : ∃ r, create d .still = .ok r := by
    cases hd
    exact ⟨_, rfl⟩
  obtain ⟨room, hroom⟩ : ∃ room, room = (run [.addPlayer (.object [])] r).2 := ⟨_, rfl⟩
  have hdefinition : room.definition = d := by
    cases hd
    cases hr
    rw [hroom]
    rfl
  have hparsed : room.definition.Parsed := ⟨vault, by rw [hdefinition, hd]⟩
  obtain ⟨a, ha, heffects⟩ : ∃ a, room.definition.action? "vault" = some a ∧ a.effects =
      [.setVar (.text "height") (.text "1 /"), .updateScore (.text "one") (.int (2 ^ 1024))] := by
    rw [hdefinition]
    cases hd
    exact ⟨_, rfl, rfl⟩
  have hsafe : ∀ e ∈ a.effects, ¬e.Faulty := by
    rw [heffects, List.forall_mem_cons, List.forall_mem_singleton]
    exact ⟨fun h => h, fun h => h trivial⟩
  obtain ⟨failure, hfailure, hcode⟩ := Option.map_eq_some_iff.1
    (show ((process (.text "vault") (.text (playerId 1)) .null room).1.failure?).map Failure.code =
      some "INTERNAL_ERROR" by
        cases hd
        cases hr
        rw [hroom]
        decide +kernel)
  obtain ⟨e, he⟩ : ∃ e, Effect.read
      (.object [("type", .text "add_event"), ("eventType", .text "bow")]) "" = .ok e := ⟨_, rfl⟩
  obtain ⟨o, ho⟩ : ∃ o, e.apply room.definition room.clock room.state = .ok o room.state := by
    cases he
    exact ⟨_, rfl⟩
  have hfailed : o.failed = true := by
    cases he
    cases ho
    rfl
  exact ⟨room, a, e, o, failure, hparsed, ha, hsafe, hfailure, hcode,
    fails_iff_faulty.2 room "vault" a hparsed ha hsafe _ _ failure hfailure, he, ⟨_, ho⟩, hfailed,
    (fails_iff_faulty.1 _ _ e he _ _ _ o _ ho).1.1 hfailed⟩

end Room
end Gameroom
