import Gameroom.Proofs.Effect.Change

/-!
Effects that are applied for certain, one after the other. What an effect needs for that is said of
each kind; where it is missing the effect changes nothing, so that those after it find the state as
it was.
-/

namespace Gameroom.Effect
variable {d : Definition} {now : Float} {e : Effect} {es : List Effect} {s s' s'' : State}

/-- An effect is applied in a state and leaves another one. -/
def Applied (d : Definition) (now : Float) (e : Effect) (s s' : State) : Prop :=
  ∃ news, e.verdict d now s = .ok (.applied news) s'

def AllApplied (d : Definition) (now : Float) (es : List Effect) (s s' : State) : Prop :=
  ∀ stopping, ∃ outcomes, applyAll d now stopping es s = .ok outcomes s'

theorem allApplied_nil (s : State) : AllApplied d now [] s s := fun _ => ⟨[], rfl⟩

theorem Applied.cons (h : Applied d now e s s') (hrest : AllApplied d now es s' s'') :
    AllApplied d now (e :: es) s s'' := by
  obtain ⟨news, hnews⟩ := h
  intro stopping
  obtain ⟨outcomes, houtcomes⟩ := hrest stopping
  have happly : e.apply d now s = .ok ⟨e, .applied news⟩ s' := Task.bind_ok hnews
  refine ⟨⟨e, .applied news⟩ :: outcomes, ?_⟩
  rw [applyAll, Task.bind_ok happly]
  exact Task.bind_ok houtcomes

theorem Applied.outcome (h : Applied d now e s s') : ((e.apply d now).outcome s).2 = s' := by
  obtain ⟨news, hnews⟩ := h
  have happly : e.apply d now s = .ok ⟨e, .applied news⟩ s' := Task.bind_ok hnews
  rw [Task.outcome_ok happly]

theorem Applied.single (h : Applied d now e s s') : AllApplied d now [e] s s' :=
  h.cons (allApplied_nil s')

theorem AllApplied.outcome (h : AllApplied d now es s s') (stopping : Bool) :
    ((applyAll d now stopping es).outcome s).2 = s' := by
  obtain ⟨outcomes, houtcomes⟩ := h stopping
  rw [Task.outcome_ok houtcomes]

theorem verdictOn_applied {name : String} (reason : Skip)
    (change : String → State → Except Fault (Bool × State))
    (h : change name s = .ok (true, s')) :
    ∃ news, verdictOn (.text name) reason change s = .ok (.applied news) s' := by
  have hstep : Task.step (State.onVariable (.text name) change) s = .ok true s' := by
    simp only [Task.step, State.onVariable, Json.key?, Json.text?, bind, Except.bind, h]
  rw [verdictOn, Task.bind_ok hstep]
  exact ⟨_, rfl⟩

theorem setVar_applied {name : String} {n : Number} (hname : name ≠ "")
    (h : s.setVariable d name (.number n) = .ok (true, s')) :
    Applied d now (.setVar (.text name) (.number n)) s s' := by
  have htruthy : (Json.text name).truthy = true := by simpa [Json.truthy] using hname
  obtain ⟨news, hnews⟩ := verdictOn_applied (.unknownVariable (Json.text name).display)
    (fun name => State.setVariable d name (.number n)) h
  refine ⟨news, ?_⟩
  rw [verdict, applySetVar, htruthy]
  exact hnews

theorem modifyVar_applied {name : String} {op : Operation} {n : Number} (hname : name ≠ "")
    (hop : op ≠ .set) (h : s.modifyVariable d name (some op) (.number n) = .ok (true, s')) :
    Applied d now (.modifyVar (.text name) (some op) (.number n)) s s' := by
  have htruthy : (Json.text name).truthy = true := by simpa [Json.truthy] using hname
  obtain ⟨news, hnews⟩ := verdictOn_applied (.unchanged (Json.text name).display)
    (fun name => if op = .set then State.setVariable d name (.number n)
      else State.modifyVariable d name (some op) (.number n))
    ((congrFun (if_neg hop) s).trans h)
  refine ⟨news, ?_⟩
  simp only [verdict, applyModifyVar, htruthy]
  exact hnews

theorem setEntity_applied {entity : String} (hname : entity ≠ "") (first : String × Json)
    (rest : Table Json) (s : State) :
    Applied d now (.setEntity (.text entity) (.object (first :: rest))) s
      ((first :: rest).foldl
        (fun s property => s.setProperty entity property.1 property.2) s) := by
  have htruthy : (Json.text entity).truthy = true := by simpa [Json.truthy] using hname
  refine ⟨[], ?_⟩
  simp only [verdict, applySetEntity, htruthy]
  exact Task.bind_ok (writeProperties_run (.text entity) first rest)

theorem addEvent_applied (d : Definition) {type line : Json} (hwords : type.truthy && line.truthy)
    {stamp : String} (hstamp : Timestamp.ofMillis now = .ok stamp) (s : State) :
    Applied d now (.addEvent type line) s
      { s with events := s.events.push ⟨type, line, stamp⟩ } := by
  have hadd : s.addEvent now type line =
      .ok (⟨type, line, stamp⟩, { s with events := s.events.push ⟨type, line, stamp⟩ }) := by
    simp only [State.addEvent, hstamp]
    rfl
  have hstep : Task.step (State.addEvent now type line) s = .ok ⟨type, line, stamp⟩
      { s with events := s.events.push ⟨type, line, stamp⟩ } := by
    simp only [Task.step, hadd]
  refine ⟨[("timestamp", .text stamp)], ?_⟩
  simp only [verdict, applyAddEvent, hwords]
  exact Task.bind_ok hstep

theorem setStatus_applied {status : Json} {next : Status}
    (hstatus : Status.ofJson? status = some next) (hpermits : s.status.permits next) :
    Applied d now (.setStatus status) s { s with status := next } := by
  have hmoved : s.setStatus next = (true, { s with status := next }) := if_pos hpermits
  refine ⟨[], ?_⟩
  rw [verdict, applySetStatus, hstatus]
  simp only [bind, EStateM.bind, modifyGet, MonadStateOf.modifyGet, EStateM.modifyGet, hmoved]
  rfl

end Gameroom.Effect
