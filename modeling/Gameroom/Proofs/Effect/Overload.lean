import Gameroom.Proofs.Definition.Tidy
import Gameroom.Proofs.Effect.Change
import Gameroom.Proofs.Room.Conditions
import Gameroom.Proofs.Timestamp

/-!
What stops a change of the state or an effect. Of all that they may be given it is a whole number
beyond the range of floats, as a value, as a result or among the values that a condition sees; of
anything else something comes.
-/

namespace Gameroom

open Expression

def Stops {α : Type} (x : Except Fault α) : Prop := ∃ fault, x = .error fault

namespace Stops
variable {α β : Type}

theorem not_ok (a : α) : ¬Stops (.ok a : Except Fault α) := fun ⟨_, h⟩ => nomatch h

theorem error (fault : Fault) : Stops (.error fault : Except Fault α) := ⟨fault, rfl⟩

theorem bind_iff {x : Except Fault α} {f : α → Except Fault β} :
    Stops (x >>= f) ↔ Stops x ∨ ∃ a, x = .ok a ∧ Stops (f a) := by
  cases x with
  | error fault => exact iff_of_true ⟨fault, rfl⟩ (.inl ⟨fault, rfl⟩)
  | ok a => simp [bind, Except.bind, not_ok]

theorem map_iff {x : Except Fault α} {f : α → β} : Stops (f <$> x) ↔ Stops x := by
  cases x with
  | error fault => exact iff_of_true ⟨fault, rfl⟩ ⟨fault, rfl⟩
  | ok a => exact iff_of_false (not_ok (f a)) (not_ok a)

end Stops

namespace Task
variable {σ α β : Type} {s : σ}

/-- A task ends in a fault. -/
def Stopped (t : Task σ α) (s : σ) : Prop := Stops (t.outcome s).1

theorem stopped_iff {t : Task σ α} : Stopped t s ↔ ∃ fault s', t s = .error fault s' := by
  unfold Stopped outcome
  cases t s with
  | error fault s' => exact iff_of_true (.error fault) ⟨fault, s', rfl⟩
  | ok a s' => exact iff_of_false (Stops.not_ok a) nofun

theorem not_stopped_of_ok {t : Task σ α} {a : α} {s' : σ} (h : t s = .ok a s') : ¬Stopped t s := by
  rw [Stopped, outcome_ok h]
  exact Stops.not_ok a

theorem stopped_bind_iff {t : Task σ α} {f : α → Task σ β} :
    Stopped (t >>= f) s ↔ Stopped t s ∨ ∃ a s', t s = .ok a s' ∧ Stopped (f a) s' := by
  simp only [stopped_iff]
  cases h : t s with
  | error fault s' =>
    rw [bind_error h]
    exact iff_of_true ⟨fault, s', rfl⟩ (.inl ⟨fault, s', rfl⟩)
  | ok a s' =>
    rw [bind_ok h]
    simp

theorem stopped_look_iff {f : σ → Except Fault α} : Stopped (look f) s ↔ Stops (f s) := by
  unfold Stopped outcome look
  cases f s with
  | error fault => rfl
  | ok a => exact iff_of_false (Stops.not_ok a) (Stops.not_ok a)

theorem stopped_step_iff {f : σ → Except Fault (α × σ)} : Stopped (step f) s ↔ Stops (f s) := by
  unfold Stopped outcome step
  cases f s with
  | error fault => exact iff_of_true (.error fault) (.error fault)
  | ok a => exact iff_of_false (Stops.not_ok a.1) (Stops.not_ok a)

theorem stopped_on_iff {τ : Type} {part : σ → τ} {put : σ → τ → σ} {t : Task τ α} :
    Stopped (on part put t) s ↔ Stopped t (part s) := by
  simp only [stopped_iff, Task.on]
  cases t (part s) with
  | error fault p => exact iff_of_true ⟨fault, _, rfl⟩ ⟨fault, p, rfl⟩
  | ok a p =>
    refine iff_of_false ?_ ?_ <;>
    · rintro ⟨_, _, h⟩
      cases h

theorem stopped_bind_iff_left {t : Task σ α} {f : α → Task σ β} (h : ∀ a s', ¬Stopped (f a) s') :
    Stopped (t >>= f) s ↔ Stopped t s := by
  rw [stopped_bind_iff]
  exact or_iff_left fun ⟨a, s', _, hstopped⟩ => h a s' hstopped

theorem stopped_look_bind_iff {f : σ → Except Fault α} {g : α → Task σ β} :
    Stopped (look f >>= g) s ↔ Stops (f s) ∨ ∃ a, f s = .ok a ∧ Stopped (g a) s := by
  rw [stopped_bind_iff, stopped_look_iff]
  unfold look
  cases f s <;> simp

end Task

/-! ### Numbers -/

namespace Number

theorem toFloat_stops {n : Number} : Stops n.toFloat ↔ Beyond (.number n) := by
  cases n with
  | float x => exact iff_of_false (Stops.not_ok x) fun ⟨_, h, _⟩ => nomatch h
  | int i =>
    rw [toFloat]
    split_ifs with hfinite
    · refine iff_of_false (Stops.not_ok _) ?_
      rintro ⟨j, hj, hbeyond⟩
      cases hj
      rw [hfinite] at hbeyond
      cases hbeyond
    · exact iff_of_true (Stops.error _) ⟨i, rfl, by simpa using hfinite⟩

theorem not_beyond_float (x : Float) : ¬Beyond (.number (.float x)) := fun ⟨_, h, _⟩ => nomatch h

end Number

theorem isScore_stops {value : Json} : Stops (isScore value) ↔ Beyond value := by
  cases value with
  | number n => exact Stops.map_iff.trans Number.toFloat_stops
  | _ => exact iff_of_false (Stops.not_ok false) fun ⟨_, h, _⟩ => nomatch h

/-- Something stops, or gives a whole number beyond the range of floats. -/
def Exceeds (x : Except Fault Number) : Prop := Stops x ∨ ∃ n, x = .ok n ∧ Beyond (.number n)

theorem exceeds_ok_iff {n : Number} : Exceeds (.ok n) ↔ Beyond (.number n) := by
  simp [Exceeds, Stops.not_ok]

namespace Number

/-- What two numbers come to is a whole number beyond the range of floats, or one of them is and is
to become a float. -/
def Overflows (exact : Int → Int → Int) : Number → Number → Prop
  | .int a, .int b => Beyond (.int (exact a b))
  | a, b => Beyond (.number a) ∨ Beyond (.number b)

/-- The quotient of two numbers lies beyond the range of floats, or one of them does and is to
become a float. -/
def QuotientOverflows : Number → Number → Prop
  | .int a, .int b => (floatOfQuotient a b).isFinite = false
  | a, b => Beyond (.number a) ∨ Beyond (.number b)

theorem rounded_exceeds_iff (rounded : Float → Float → Float) (a b : Number) :
    Exceeds (do return .float (rounded (← a.toFloat) (← b.toFloat))) ↔
      Beyond (.number a) ∨ Beyond (.number b) := by
  rw [← toFloat_stops, ← toFloat_stops]
  cases ha : a.toFloat with
  | error fault => exact iff_of_true (.inl (.error fault)) (.inl (.error fault))
  | ok x =>
    cases hb : b.toFloat with
    | error fault => exact iff_of_true (.inl (.error fault)) (.inr (.error fault))
    | ok y =>
      refine iff_of_false ?_ (not_or.2 ⟨Stops.not_ok x, Stops.not_ok y⟩)
      exact fun h => not_beyond_float _ (exceeds_ok_iff.1 h)

theorem arithmetic_exceeds_iff (exact : Int → Int → Int) (rounded : Float → Float → Float)
    (a b : Number) : Exceeds (arithmetic exact rounded a b) ↔ Overflows exact a b := by
  cases a <;> cases b
  case int.int => exact exceeds_ok_iff
  all_goals exact rounded_exceeds_iff rounded _ _

theorem div_exceeds_iff (a b : Number) : Exceeds (a.div b) ↔ QuotientOverflows a b := by
  cases a <;> cases b
  case int.int a b =>
    rw [div, QuotientOverflows]
    split_ifs with hfinite
    · rw [exceeds_ok_iff, hfinite]
      exact iff_of_false (not_beyond_float _) (by decide)
    · exact iff_of_true (.inl (.error _)) (Bool.eq_false_iff.2 hfinite)
  all_goals exact rounded_exceeds_iff _ _ _

end Number

/-- What a variable of a value is to hold after an operation with an amount lies beyond the range of
floats, or something on the way to it does. -/
def Operation.Overflows (op : Operation) (current amount : Number) : Prop :=
  match op with
  | .set => Beyond (.number amount)
  | .add => Number.Overflows (· + ·) current amount
  | .subtract => Number.Overflows (· - ·) current amount
  | .multiply => Number.Overflows (· * ·) current amount
  | .divide =>
    if amount.isZero then Beyond (.number current) else Number.QuotientOverflows current amount

namespace State
variable {d : Definition} {s : State} {name : String}

theorem combined_exceeds_iff (op : Operation) (current amount : Number) :
    Exceeds (combined op current amount) ↔ op.Overflows current amount := by
  cases op with
  | set => exact exceeds_ok_iff
  | add | subtract | multiply => exact Number.arithmetic_exceeds_iff _ _ current amount
  | divide =>
    rw [combined, Operation.Overflows]
    split_ifs
    · exact exceeds_ok_iff
    · exact Number.div_exceeds_iff current amount

/-! ### Variables -/

theorem settled_stops_iff {v : Variable} {value : Json} :
    Stops (settled v value) ↔ Beyond value := by
  cases value with
  | number n =>
    rw [settled, Stops.bind_iff, Number.isNaN?, Stops.map_iff, Number.toFloat_stops, or_iff_left]
    rintro ⟨nan, -, h⟩
    split at h
    · exact Stops.not_ok _ h
    · split at h <;> exact Stops.not_ok _ h
  | _ =>
    refine iff_of_false (Stops.not_ok _) ?_
    rintro ⟨_, h, _⟩
    cases h

theorem setVariable_stops_iff {value : Json} :
    Stops (s.setVariable d name value) ↔ d.vars.has name ∧ Beyond value := by
  rw [setVariable, Table.has]
  cases d.vars.get? name with
  | none => exact iff_of_false (Stops.not_ok _) fun h => Bool.false_ne_true h.1
  | some v =>
    dsimp only
    rw [Stops.bind_iff, settled_stops_iff, or_iff_left ?_]
    · exact (and_iff_right rfl).symm
    · rintro ⟨_, _, h⟩
      exact Stops.not_ok _ h

theorem modifyVariable_stops_iff {op : Option Operation} {amount : Json} :
    Stops (s.modifyVariable d name op amount) ↔ d.vars.has name ∧ ∃ o n, op = some o ∧ o ≠ .set ∧
      amount = .number n ∧ o.Overflows (s.operand name) n := by
  unfold modifyVariable
  split
  · rename_i hhas
    exact iff_of_false (Stops.not_ok _) fun h => Bool.false_ne_true (hhas.symm.trans h.1)
  · exact iff_of_false (Stops.not_ok _) fun ⟨_, o, n, h, _⟩ => nomatch h
  · exact iff_of_false (Stops.not_ok _) fun ⟨_, o, n, h, hset, _⟩ => hset (Option.some.inj h).symm
  · rename_i n o hset hhas
    rw [Stops.bind_iff, hhas, and_iff_right rfl]
    simp only [setVariable_stops_iff, hhas, true_and]
    refine (combined_exceeds_iff o (s.operand name) n).trans
      ⟨fun h => ⟨o, n, rfl, hset, rfl, h⟩, ?_⟩
    rintro ⟨_, _, ⟨⟩, -, ⟨⟩, h⟩
    exact h
  · rename_i hset hnumber
    refine iff_of_false (Stops.not_ok _) ?_
    rintro ⟨-, o, n, rfl, -, rfl, -⟩
    exact hnumber n o rfl rfl

end State

/-! ### Effects -/

namespace Effect
open State
variable {d : Definition} {now : Float} {s : State}

/-- What an effect would have to do in a state goes beyond the floats: the value that it gives a
variable or a score, or what the state holds when its value is a condition. -/
def Overloads (d : Definition) (s : State) : Effect → Prop
  | setVar target value => (Asks value ∧ s.Overflows) ∨
    ∃ name, target = .text name ∧ d.vars.has name ∧ Beyond value
  | modifyVar target op value => (Asks value ∧ s.Overflows) ∨
    ∃ name o n, target = .text name ∧ d.vars.has name ∧ op = some o ∧
      resolve s value = .ok (.number n) ∧ o.Overflows (s.operand name) n
  | updateScore _ value => Beyond value
  | _ => False

theorem resolve_stops_iff {value : Json} : Stops (resolve s value) ↔ Asks value ∧ s.Overflows := by
  cases value with
  | text t =>
    rw [resolve, Stops.bind_iff, or_iff_left fun ⟨_, _, h⟩ => Stops.not_ok _ h, ← overflows_iff]
    refine ⟨fun ⟨fault, h⟩ => ?_, fun h => ⟨_, number?_error_iff.2 ⟨h.1, h.2, rfl⟩⟩⟩
    have herror := number?_error_iff.1 h
    exact ⟨herror.1, herror.2.1⟩
  | _ => exact iff_of_false (Stops.not_ok _) fun ⟨⟨_, h, _⟩, _⟩ => nomatch h

theorem resolve_beyond {value held : Json} (h : resolve s value = .ok held) :
    Beyond held ↔ Beyond value := by
  cases value with
  | text t =>
    obtain ⟨x?, -, h⟩ := ok_of_bind h
    cases h
    refine iff_of_false ?_ fun ⟨_, h, _⟩ => nomatch h
    cases x? with
    | none => exact fun ⟨_, h, _⟩ => nomatch h
    | some x => exact Number.not_beyond_float x
  | _ =>
    cases h
    rfl

theorem verdictOn_stopped_iff {name : String} {reason : Skip}
    {change : String → State → Except Fault (Bool × State)} :
    (verdictOn (.text name) reason change).Stopped s ↔ Stops (change name s) := by
  have hstep : Stops (onVariable (.text name) change s) ↔ Stops (change name s) := Iff.rfl
  rw [← hstep, ← Task.stopped_step_iff]
  refine Task.stopped_bind_iff_left fun done s' => ?_
  cases done with
  | true => exact Task.not_stopped_of_ok rfl
  | false => exact Task.not_stopped_of_ok rfl

theorem applySetVar_stopped_iff {target value : Json} (htarget : target.Tidy) :
    (applySetVar d target value).Stopped s ↔ (setVar target value).Overloads d s := by
  obtain ⟨name, rfl, -⟩ := id htarget
  unfold applySetVar
  rw [htarget.truthy]
  refine Task.stopped_look_bind_iff.trans (or_congr resolve_stops_iff ⟨?_, ?_⟩)
  · rintro ⟨held, hheld, h⟩
    split at h
    · exact absurd h (Task.not_stopped_of_ok rfl)
    · obtain ⟨hhas, hbeyond⟩ := setVariable_stops_iff.1 (verdictOn_stopped_iff.1 h)
      exact ⟨name, rfl, hhas, (resolve_beyond hheld).1 hbeyond⟩
  · rintro ⟨_, ⟨⟩, hhas, i, rfl, hi⟩
    exact ⟨.int i, rfl, verdictOn_stopped_iff.2 (setVariable_stops_iff.2 ⟨hhas, i, rfl, hi⟩)⟩

theorem changed_stops_iff {name : String} {o : Operation} {held : Json} :
    Stops ((if o = .set then setVariable d name held else modifyVariable d name (some o) held) s) ↔
      d.vars.has name ∧ ∃ n, held = .number n ∧ o.Overflows (s.operand name) n := by
  split_ifs with hset
  · subst hset
    rw [setVariable_stops_iff]
    refine and_congr_right fun _ => ⟨?_, ?_⟩
    · rintro ⟨i, rfl, hi⟩
      exact ⟨.int i, rfl, i, rfl, hi⟩
    · rintro ⟨n, rfl, hn⟩
      exact hn
  · rw [modifyVariable_stops_iff]
    refine and_congr_right fun _ => ⟨?_, ?_⟩
    · rintro ⟨_, n, ⟨⟩, -, rfl, hn⟩
      exact ⟨n, rfl, hn⟩
    · rintro ⟨n, rfl, hn⟩
      exact ⟨o, n, rfl, hset, rfl, hn⟩

theorem applyModifyVar_stopped_iff {target value : Json} (htarget : target.Tidy) (o : Operation) :
    (applyModifyVar d target (some o) value).Stopped s ↔
      (modifyVar target (some o) value).Overloads d s := by
  obtain ⟨name, rfl, -⟩ := id htarget
  unfold applyModifyVar
  rw [htarget.truthy]
  refine Task.stopped_look_bind_iff.trans (or_congr resolve_stops_iff ⟨?_, ?_⟩)
  · rintro ⟨held, hheld, h⟩
    split at h
    · exact absurd h (Task.not_stopped_of_ok rfl)
    · obtain ⟨hhas, n, rfl, hn⟩ := changed_stops_iff.1 (verdictOn_stopped_iff.1 h)
      exact ⟨name, o, n, rfl, hhas, rfl, hheld, hn⟩
  · rintro ⟨_, _, n, ⟨⟩, hhas, ⟨⟩, hheld, hn⟩
    refine ⟨.number n, hheld, ?_⟩
    rw [if_neg (by exact Bool.false_ne_true)]
    exact verdictOn_stopped_iff.2 (changed_stops_iff.2 ⟨hhas, n, rfl, hn⟩)

theorem applySetEntity_not_stopped {target : Json} (htarget : target.Tidy) (value : Json) :
    ¬(applySetEntity target value).Stopped s := by
  obtain ⟨entity, rfl, -⟩ := id htarget
  unfold applySetEntity
  split
  · rename_i first rest _
    exact Task.not_stopped_of_ok (Task.bind_ok (writeProperties_run (.text entity) first rest))
  · exact Task.not_stopped_of_ok rfl

theorem applyUpdateScore_stopped_iff {player : Json} (hplayer : player.Tidy) (value : Json) :
    (applyUpdateScore player value).Stopped s ↔ Beyond value := by
  obtain ⟨id, rfl, -⟩ := id hplayer
  unfold applyUpdateScore
  rw [hplayer.truthy]
  refine Task.stopped_look_bind_iff.trans ?_
  rw [isScore_stops, or_iff_left]
  rintro ⟨scored, -, h⟩
  cases scored <;> exact Task.not_stopped_of_ok rfl h

theorem applyAddLog_not_stopped (line : Json) : ¬(applyAddLog line).Stopped s := by
  unfold applyAddLog
  split <;> exact Task.not_stopped_of_ok rfl

theorem applyAddEvent_not_stopped (hnow : Timestamp.InYears now) (type line : Json) :
    ¬(applyAddEvent now type line).Stopped s := by
  unfold applyAddEvent
  split
  · exact Task.not_stopped_of_ok rfl
  · obtain ⟨stamp, hstamp⟩ := Timestamp.ofMillis_ok hnow
    refine (Task.stopped_bind_iff_left fun _ _ => Task.not_stopped_of_ok rfl).not.2 ?_
    rw [Task.stopped_step_iff, State.addEvent, hstamp]
    exact Stops.not_ok _

theorem applySetStatus_not_stopped (status : Json) : ¬(applySetStatus status).Stopped s := by
  unfold applySetStatus
  split
  · exact Task.not_stopped_of_ok rfl
  · rename_i next _
    refine (Task.stopped_bind_iff_left fun moved s' => ?_).not.2 (Task.not_stopped_of_ok rfl)
    cases moved <;> exact Task.not_stopped_of_ok rfl

theorem WellFormed.verdict_stopped_iff {e : Effect} (h : e.WellFormed)
    (hnow : Timestamp.InYears now) : (e.verdict d now).Stopped s ↔ e.Overloads d s := by
  cases e with
  | setVar target value => exact applySetVar_stopped_iff h
  | modifyVar target op value =>
    obtain ⟨htarget, o, rfl⟩ := h
    exact applyModifyVar_stopped_iff htarget o
  | setEntity target value => exact iff_of_false (applySetEntity_not_stopped h value) id
  | triggerEvent | message => exact iff_of_false (Task.not_stopped_of_ok rfl) id
  | updateScore player value => exact applyUpdateScore_stopped_iff h value
  | addLog line => exact iff_of_false (applyAddLog_not_stopped line) id
  | addEvent type line => exact iff_of_false (applyAddEvent_not_stopped hnow type line) id
  | setStatus status => exact iff_of_false (applySetStatus_not_stopped status) id
  | other kind => exact h.elim

theorem apply_stopped_iff {e : Effect} (he : Schema.Made read e) (hnow : Timestamp.InYears now) :
    (e.apply d now).Stopped s ↔ e.Overloads d s :=
  (Task.stopped_bind_iff_left fun _ _ => Task.not_stopped_of_ok rfl).trans
    ((read_wellFormed he).verdict_stopped_iff hnow)

end Effect
end Gameroom
