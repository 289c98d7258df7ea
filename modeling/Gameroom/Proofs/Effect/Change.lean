import Gameroom.Effect.Apply
import Gameroom.Proofs.State.Step

/-! An effect that is applied makes one change of its kind; any other leaves the state alone. -/

namespace Gameroom

namespace Task
variable {σ α β : Type} {ends : α → Bool} {R : σ → σ → Prop} {s : σ}

/-- A task that ends as it should has changed a state as a relation says. Ended otherwise, or
stopped by a fault, it has changed nothing. -/
def Atomic (ends : α → Bool) (R : σ → σ → Prop) (t : Task σ α) (s : σ) : Prop :=
  match t s with
  | .ok a s' => if ends a then R s s' else s' = s
  | .error _ s' => s' = s

theorem atomic_pure {a : α} (h : ends a = false) : Atomic ends R (pure a) s :=
  (if_neg (Bool.eq_false_iff.1 h)).mpr rfl

theorem atomic_done {a : α} (h : ends a) (hs : R s s) : Atomic ends R (pure a) s :=
  (if_pos h).mpr hs

theorem atomic_look_bind {f : σ → Except Fault β} {g : β → Task σ α}
    (h : ∀ b, f s = .ok b → Atomic ends R (g b) s) : Atomic ends R (look f >>= g) s := by
  cases hf : f s with
  | error fault =>
    rw [Atomic, bind_error (look_error hf)]
  | ok b =>
    rw [Atomic, bind_ok (look_ok hf)]
    exact h b hf

theorem atomic_step_bind {f : σ → Except Fault (β × σ)} {g : β → Task σ α} {p : β → Bool}
    (hg : ∀ b s', ∃ a, g b s' = .ok a s' ∧ ends a = p b)
    (hf : ∀ b s', f s = .ok (b, s') → if p b then R s s' else s' = s) :
    Atomic ends R (step f >>= g) s := by
  cases hfs : f s with
  | error fault =>
    have hrun : (step f >>= g) s = .error fault s := bind_error (by simp only [step, hfs])
    rw [Atomic, hrun]
  | ok next =>
    obtain ⟨b, s'⟩ := next
    obtain ⟨a, ha, hends⟩ := hg b s'
    have hrun : (step f >>= g) s = g b s' := bind_ok (by simp only [step, hfs])
    rw [Atomic, hrun, ha]
    dsimp only
    rw [hends]
    exact hf b s' hfs

theorem atomic_modify_bind {f : σ → σ} {a : α} (h : ends a) (hs : R s (f s)) :
    Atomic ends R (modify f >>= fun _ => pure a) s := (if_pos h).mpr hs

theorem Atomic.moves {Q : σ → σ → Prop} [IsPreorder σ Q] {t : Task σ α} (h : Atomic ends R t s)
    (hQ : ∀ s', R s s' → Q s s') : Moves Q t s := by
  cases hrun : t s with
  | error fault s' =>
    rw [Atomic, hrun] at h
    rw [Moves, outcome_error hrun]
    exact h ▸ refl_of Q s
  | ok a s' =>
    rw [Atomic, hrun] at h
    rw [Moves, outcome_ok hrun]
    dsimp only at h ⊢
    split_ifs at h
    · exact hQ s' h
    · exact h ▸ refl_of Q s

end Task

namespace Effect

/-- The change that an effect makes once it is applied. -/
inductive Changes (d : Definition) : Effect → State → State → Prop
  | setVar {name : String} {value held : Json} {s s' : State}
      (h : s.setVariable d name held = .ok (true, s')) : Changes d (.setVar (.text name) value) s s'
  | modifyVar {name : String} {op : Option Operation} {value held : Json} {s s' : State}
      (h : s.setVariable d name held = .ok (true, s')) :
      Changes d (.modifyVar (.text name) op value) s s'
  | setEntity {target : Json} {entity : String} {properties : Table Json} {s : State}
      (h : target.name = .ok entity) :
      Changes d (.setEntity target (.object properties)) s
        (properties.foldl (fun s property => s.setProperty entity property.1 property.2) s)
  | triggerEvent (target value : Json) (s : State) : Changes d (.triggerEvent target value) s s
  | message (line : Json) (s : State) : Changes d (.message line) s s
  | updateScore {player score : Json} {id : String} {s : State} (h : player.name = .ok id) :
      Changes d (.updateScore player score) s (s.updateScore id score)
  | addLog (line : Json) (s : State) : Changes d (.addLog line) s (s.addLog line)
  | addEvent {now : Float} {type line : Json} {event : Event} {s s' : State}
      (h : s.addEvent now type line = .ok (event, s')) : Changes d (.addEvent type line) s s'
  | setStatus {status : Json} {next : Status} {s : State} (hs : Status.ofJson? status = some next)
      (h : s.status.permits next) : Changes d (.setStatus status) s { s with status := next }

end Effect

namespace Verdict

def isApplied : Verdict → Bool
  | .applied _ => true
  | _ => false

end Verdict

namespace Effect
variable {d : Definition} {now : Float} {s : State} {R : State → State → Prop}

theorem verdictOn_atomic {target : Json} {reason : Skip}
    {change : String → State → Except Fault (Bool × State)}
    (h : ∀ name done s', target = .text name → change name s = .ok (done, s') →
      if done then R s s' else s' = s) :
    Task.Atomic Verdict.isApplied R (verdictOn target reason change) s := by
  refine Task.atomic_step_bind (p := id) (fun done s' => ?_) (fun done s' hdone => ?_)
  · cases done <;> exact ⟨_, rfl, rfl⟩
  · rcases State.onVariable_ok hdone with ⟨rfl, rfl⟩ | ⟨name, rfl, hchange⟩
    · rfl
    · exact h name done s' rfl hchange

theorem setVariable_atomic {name : String} {held : Json} {s' : State} {done : Bool}
    (h : s.setVariable d name held = .ok (done, s'))
    (hR : s.setVariable d name held = .ok (true, s') → R s s') :
    if done then R s s' else s' = s := by
  cases done with
  | true => exact hR h
  | false => exact State.setVariable_false h

theorem applySetVar_atomic (target value : Json) :
    Task.Atomic Verdict.isApplied (Changes d (.setVar target value))
      (applySetVar d target value) s := by
  unfold applySetVar
  split
  · exact Task.atomic_pure rfl
  · refine Task.atomic_look_bind fun resolved _ => ?_
    split
    · exact Task.atomic_pure rfl
    · refine verdictOn_atomic fun name done s' htarget h => ?_
      subst htarget
      exact setVariable_atomic h .setVar

theorem applyModifyVar_atomic (target : Json) (op : Option Operation) (value : Json) :
    Task.Atomic Verdict.isApplied (Changes d (.modifyVar target op value))
      (applyModifyVar d target op value) s := by
  unfold applyModifyVar
  split
  · refine Task.atomic_look_bind fun amount _ => ?_
    split
    · exact Task.atomic_pure rfl
    · refine verdictOn_atomic fun name done s' htarget h => ?_
      subst htarget
      split at h
      · exact setVariable_atomic h .modifyVar
      · rcases State.modifyVariable_ok h with ⟨rfl, rfl⟩ | ⟨held, hheld⟩
        · rfl
        · exact setVariable_atomic hheld .modifyVar
  · exact Task.atomic_pure rfl

/-- The name of an entity is looked up anew for each property, so it is a fault at the first one or
at none. -/
theorem writeProperties_run (target : Json) (first : String × Json) (rest : Table Json) :
    Task.forEach (writeProperty target) (first :: rest) s =
      match target.name with
      | .ok entity => .ok () ((first :: rest).foldl
          (fun s property => s.setProperty entity property.1 property.2) s)
      | .error fault => .error fault s := by
  have hwrite (property : String × Json) (s : State) : writeProperty target property s =
      match target.name with
      | .ok entity => .ok () (s.setProperty entity property.1 property.2)
      | .error fault => .error fault s := by
    unfold writeProperty
    cases h : target.name with
    | error fault => exact Task.bind_error (by simp only [Task.look])
    | ok entity => exact Task.bind_ok (by simp only [Task.look])
  cases h : target.name with
  | error fault =>
    rw [h] at hwrite
    exact Task.bind_error (hwrite first s)
  | ok entity =>
    rw [h] at hwrite
    -- From here on the name is known, and the induction needs no first property.
    generalize first :: rest = properties
    induction properties generalizing s with
    | nil => rfl
    | cons property rest ih =>
      rw [Task.forEach, Task.bind_ok (hwrite property s)]
      exact ih

theorem applySetEntity_atomic (target value : Json) :
    Task.Atomic Verdict.isApplied (Changes d (.setEntity target value))
      (applySetEntity target value) s := by
  unfold applySetEntity
  split
  · rename_i first rest _
    have hrun := writeProperties_run (s := s) target first rest
    cases h : target.name with
    | error fault =>
      rw [h] at hrun
      rw [Task.Atomic, Task.bind_error hrun]
    | ok entity =>
      rw [h] at hrun
      rw [Task.Atomic, Task.bind_ok hrun]
      exact .setEntity h
  · exact Task.atomic_pure rfl

theorem applyUpdateScore_atomic (player value : Json) :
    Task.Atomic Verdict.isApplied (Changes d (.updateScore player value))
      (applyUpdateScore player value) s := by
  unfold applyUpdateScore
  split
  · exact Task.atomic_pure rfl
  · refine Task.atomic_look_bind fun scored _ => ?_
    split
    · exact Task.atomic_look_bind fun id hid => Task.atomic_modify_bind rfl (.updateScore hid)
    · exact Task.atomic_pure rfl

theorem applyAddLog_atomic (line : Json) :
    Task.Atomic Verdict.isApplied (Changes d (.addLog line)) (applyAddLog line) s := by
  unfold applyAddLog
  split
  · exact Task.atomic_pure rfl
  · exact Task.atomic_modify_bind rfl (.addLog line s)

theorem applyAddEvent_atomic (type line : Json) :
    Task.Atomic Verdict.isApplied (Changes d (.addEvent type line))
      (applyAddEvent now type line) s := by
  unfold applyAddEvent
  split
  · exact Task.atomic_pure rfl
  · exact Task.atomic_step_bind (p := fun _ => true) (fun _ _ => ⟨_, rfl, rfl⟩)
      fun _ _ h => .addEvent h

theorem applySetStatus_atomic (status : Json) :
    Task.Atomic Verdict.isApplied (Changes d (.setStatus status)) (applySetStatus status) s := by
  unfold applySetStatus
  split
  · exact Task.atomic_pure rfl
  · rename_i next hnext
    -- A move of the status is a step that nothing can stop.
    refine Task.atomic_step_bind (f := fun s : State => .ok (s.setStatus next)) (p := id)
      (fun moved s' => ?_) (fun moved s' h => ?_)
    · cases moved <;> exact ⟨_, rfl, rfl⟩
    · unfold State.setStatus at h
      split at h <;> cases h
      · exact .setStatus hnext ‹_›
      · rfl

theorem verdict_atomic (d : Definition) (now : Float) (e : Effect) (s : State) :
    Task.Atomic Verdict.isApplied (e.Changes d) (e.verdict d now) s := by
  cases e with
  | setVar target value => exact applySetVar_atomic target value
  | modifyVar target op value => exact applyModifyVar_atomic target op value
  | setEntity target value => exact applySetEntity_atomic target value
  | triggerEvent target value => exact Task.atomic_done rfl (.triggerEvent target value s)
  | message line => exact Task.atomic_done rfl (.message line s)
  | updateScore player value => exact applyUpdateScore_atomic player value
  | addLog line => exact applyAddLog_atomic line
  | addEvent type line => exact applyAddEvent_atomic type line
  | setStatus status => exact applySetStatus_atomic status
  | other kind => exact Task.atomic_look_bind fun _ _ => Task.atomic_pure rfl

theorem apply_atomic (d : Definition) (now : Float) (e : Effect) (s : State) :
    Task.Atomic Outcome.isApplied (e.Changes d) (e.apply d now) s := by
  have h := verdict_atomic d now e s
  unfold Task.Atomic at h ⊢
  cases hrun : e.verdict d now s with
  | error fault s' =>
    have happly : e.apply d now s = .error fault s' := Task.bind_error hrun
    rw [hrun] at h
    rw [happly]
    exact h
  | ok v s' =>
    have happly : e.apply d now s = .ok ⟨e, v⟩ s' := Task.bind_ok hrun
    rw [hrun] at h
    rw [happly]
    cases v <;> exact h

end Effect
end Gameroom
