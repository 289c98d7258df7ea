import Gameroom.Proofs.Shift.State

/-!
Effects at later readings. They come to the same, and change states alike; the timestamp that an
event is given is the later one.
-/

namespace Gameroom

/-- The same outcome; what came of an event tells the later timestamp. -/
inductive Outcome.Delayed (delay : Int) : Outcome → Outcome → Prop
  | same (o : Outcome) : Delayed delay o o
  | event {type line : Json} {t t' : String} (h : DelayedStamp delay t t') :
    Delayed delay ⟨.addEvent type line, .applied [("timestamp", .text t)]⟩
      ⟨.addEvent type line, .applied [("timestamp", .text t')]⟩

theorem Outcome.Delayed.failure? {delay : Int} {o o' : Outcome} (h : Outcome.Delayed delay o o') :
    o'.failure? = o.failure? := by
  cases h <;> rfl

abbrev DelayedOutcomes (delay : Int) : List Outcome → List Outcome → Prop :=
  List.Forall₂ (Outcome.Delayed delay)

theorem DelayedOutcomes.failure? {delay : Int} {os os' : List Outcome}
    (h : DelayedOutcomes delay os os') :
    os'.getLast?.bind Outcome.failure? = os.getLast?.bind Outcome.failure? := by
  induction h with
  | nil => rfl
  | @cons o o' rest rest' h hrest ih =>
    cases hrest with
    | nil => exact h.failure?
    | cons _ _ =>
      rw [List.getLast?_cons_cons, List.getLast?_cons_cons]
      exact ih

open Gameroom.Task

namespace Effect
open State
variable {delay : Int} {d : Definition} {now now' : Float} {s s' : State}

theorem resolve_delayed (h : State.Delayed delay s s') (value : Json) :
    resolve s' value = resolve s value := by
  unfold resolve
  rw [h.context]

theorem verdictOn_agree (h : State.Delayed delay s s') (target : Json) (reason : Skip)
    {change : String → State → Except Fault (Bool × State)}
    (hchange : ∀ name, Answered (Stepped delay) (change name s) (change name s')) :
    Agree (State.Delayed delay) Same (verdictOn target reason change)
      (verdictOn target reason change) s s' := by
  refine (agree_step (h.onVariable target hchange) h).bind_same fun done _ _ h₁ => ?_
  cases done with
  | true =>
    refine agree_get_bind (agree_pure ?_ h₁)
    rw [Same, h₁.vars]
  | false => exact agree_pure rfl h₁

theorem applySetVar_agree (h : State.Delayed delay s s') (target value : Json) :
    Agree (State.Delayed delay) Same (applySetVar d target value) (applySetVar d target value)
      s s' := by
  unfold applySetVar
  split
  · exact agree_pure rfl h
  · refine Agree.bind_same (agree_look_same (resolve_delayed h value) h) fun held _ _ h₁ => ?_
    split
    · exact agree_pure rfl h₁
    · exact verdictOn_agree h₁ target _ fun name => h₁.setVariable name held

theorem applyModifyVar_agree (h : State.Delayed delay s s') (target : Json) (op : Option Operation)
    (value : Json) : Agree (State.Delayed delay) Same (applyModifyVar d target op value)
      (applyModifyVar d target op value) s s' := by
  unfold applyModifyVar
  split
  · rename_i o _
    refine Agree.bind_same (agree_look_same (resolve_delayed h value) h) fun held _ _ h₁ => ?_
    split
    · exact agree_pure rfl h₁
    · refine verdictOn_agree h₁ target _ fun name => ?_
      split
      · exact h₁.setVariable name held
      · exact h₁.modifyVariable name (some o) held
  · exact agree_pure rfl h

theorem writeProperty_agree (h : State.Delayed delay s s') (target : Json)
    (property : String × Json) : Agree (State.Delayed delay) (fun _ _ => True)
      (writeProperty target property) (writeProperty target property) s s' := by
  refine Agree.bind_same (agree_look_same rfl h) fun entity _ _ h₁ => ?_
  exact agree_modify (h₁.setProperty entity property.1 property.2)

theorem applySetEntity_agree (h : State.Delayed delay s s') (target value : Json) :
    Agree (State.Delayed delay) Same (applySetEntity target value) (applySetEntity target value)
      s s' := by
  unfold applySetEntity
  split
  · exact (agree_forEach _ (fun property _ s s' h => writeProperty_agree h target property) h).bind
      fun _ _ s₁ s₁' _ h₁ => agree_pure rfl h₁
  · exact agree_pure rfl h

theorem applyUpdateScore_agree (h : State.Delayed delay s s') (player value : Json) :
    Agree (State.Delayed delay) Same (applyUpdateScore player value) (applyUpdateScore player value)
      s s' := by
  unfold applyUpdateScore
  split
  · exact agree_pure rfl h
  · refine Agree.bind_same (agree_look_same rfl h) fun _ _ _ h₁ => ?_
    split
    · refine Agree.bind_same (agree_look_same rfl h₁) fun id _ _ h₂ => ?_
      exact (agree_modify (h₂.updateScore id value)).bind fun _ _ _ _ _ h₃ => agree_pure rfl h₃
    · exact agree_pure rfl h₁

theorem applyAddLog_agree (h : State.Delayed delay s s') (line : Json) :
    Agree (State.Delayed delay) Same (applyAddLog line) (applyAddLog line) s s' := by
  unfold applyAddLog
  split
  · exact agree_pure rfl h
  · exact (agree_modify (h.addLog line)).bind fun _ _ _ _ _ h₁ => agree_pure rfl h₁

theorem applySetStatus_agree (h : State.Delayed delay s s') (status : Json) :
    Agree (State.Delayed delay) Same (applySetStatus status) (applySetStatus status) s s' := by
  unfold applySetStatus
  split
  · exact agree_pure rfl h
  · rename_i next _
    refine (agree_modifyGet (h.setStatus next).1 (h.setStatus next).2).bind_same fun _ _ _ h₁ => ?_
    split <;> exact agree_pure rfl h₁

theorem applyAddEvent_agree (h : State.Delayed delay s s') (hnow : DelayedClock delay now now')
    (type line : Json) : Agree (State.Delayed delay)
      (fun v v' => Outcome.Delayed delay ⟨.addEvent type line, v⟩ ⟨.addEvent type line, v'⟩)
      (applyAddEvent now type line) (applyAddEvent now' type line) s s' := by
  unfold applyAddEvent
  split
  · exact agree_pure (.same _) h
  · exact (agree_step (h.addEvent hnow type line) h).bind fun e e' s₁ s₁' he h₁ =>
      agree_pure (.event he.timestamp) h₁

theorem verdict_agree (h : State.Delayed delay s s') (hnow : DelayedClock delay now now')
    (e : Effect) : Agree (State.Delayed delay)
      (fun v v' => Outcome.Delayed delay ⟨e, v⟩ ⟨e, v'⟩) (e.verdict d now) (e.verdict d now')
      s s' := by
  have hsame (v v' : Verdict) (hv : Same v v') : Outcome.Delayed delay ⟨e, v⟩ ⟨e, v'⟩ := by
    rw [hv]
    exact .same _
  cases e with
  | setVar target value => exact (applySetVar_agree h target value).mono hsame
  | modifyVar target op value => exact (applyModifyVar_agree h target op value).mono hsame
  | setEntity target value => exact (applySetEntity_agree h target value).mono hsame
  | triggerEvent | message => exact agree_pure (.same _) h
  | updateScore player value => exact (applyUpdateScore_agree h player value).mono hsame
  | addLog line => exact (applyAddLog_agree h line).mono hsame
  | addEvent type line => exact applyAddEvent_agree h hnow type line
  | setStatus status => exact (applySetStatus_agree h status).mono hsame
  | other kind =>
    exact Agree.bind (agree_look_same rfl h) fun _ _ _ _ _ h₁ =>
      agree_pure (Outcome.Delayed.same _) h₁

theorem apply_agree (h : State.Delayed delay s s') (hnow : DelayedClock delay now now')
    (e : Effect) : Agree (State.Delayed delay) (Outcome.Delayed delay) (e.apply d now)
      (e.apply d now') s s' :=
  (verdict_agree h hnow e).bind fun _ _ _ _ hv h₁ => agree_pure hv h₁

theorem applyAll_agree (h : State.Delayed delay s s') (hnow : DelayedClock delay now now')
    (stopping : Bool) (es : List Effect) :
    Agree (State.Delayed delay) (DelayedOutcomes delay) (applyAll d now stopping es)
      (applyAll d now' stopping es) s s' := by
  induction es generalizing s s' with
  | nil => exact agree_pure .nil h
  | cons e rest ih =>
    refine (apply_agree h hnow e).bind fun o o' s₁ s₁' ho h₁ => ?_
    have hfailed : o'.failed = o.failed := by rw [Outcome.failed, Outcome.failed, ho.failure?]
    rw [hfailed]
    split
    · exact agree_pure (.cons ho .nil) h₁
    · exact (ih h₁).bind fun _ _ _ _ hos h₂ => agree_pure (.cons ho hos) h₂

end Effect
end Gameroom
