import Gameroom.Proofs.Shift.Ticking
import Gameroom.Room.Request

/-!
Answers of rooms whose times lie later. Each request says where its answer tells times; all the rest
of an answer is the same.
-/

namespace Gameroom

variable {delay : Int}

/-! ### Pictures -/

structure PlayerInfo.Delayed (delay : Int) (p p' : PlayerInfo) : Prop where
  rest : p' = { p with joinedAt := p'.joinedAt, lastSeen := p'.lastSeen }
  joinedAt : DelayedReading delay p.joinedAt p'.joinedAt
  lastSeen : DelayedReading delay p.lastSeen p'.lastSeen

structure EventInfo.Delayed (delay : Int) (e e' : EventInfo) : Prop where
  rest : e' = { e with timestamp := e'.timestamp }
  timestamp : DelayedStamp delay e.timestamp e'.timestamp

/-- The same picture, with times that lie later. -/
structure Snapshot.Delayed (delay : Int) (s s' : Snapshot) : Prop where
  rest : s' =
    { s with players := s'.players, events := s'.events, lastActionTime := s'.lastActionTime }
  players : s.players.Matched (PlayerInfo.Delayed delay) s'.players
  events : List.Forall₂ (EventInfo.Delayed delay) s.events s'.events
  lastActionTime : DelayedReading delay s.lastActionTime s'.lastActionTime

namespace Snapshot

theorem ofPlayer_delayed {p p' : Player} (h : Player.Delayed delay p p') :
    Answered (PlayerInfo.Delayed delay) (PlayerInfo.ofPlayer p) (PlayerInfo.ofPlayer p') := by
  obtain ⟨hrest, hjoined, hseen⟩ := h
  rw [hrest]
  refine (Answered.of_eq rfl).bind ?_
  rintro fitted _ rfl
  exact .ok ⟨rfl, hjoined, hseen⟩

theorem playersOf_delayed {ps ps' : Table Player} (h : ps.Matched (Player.Delayed delay) ps') :
    Answered (Table.Matched (PlayerInfo.Delayed delay)) (playersOf ps) (playersOf ps') := by
  induction h with
  | nil => exact .ok .nil
  | @cons e e' rest rest' h _ ih =>
    obtain ⟨id, p⟩ := e
    obtain ⟨_, p'⟩ := e'
    obtain ⟨rfl, hp⟩ := h
    exact (ofPlayer_delayed hp).bind fun _ _ hinfo => ih.bind fun _ _ hothers =>
      .ok (.cons ⟨rfl, hinfo⟩ hothers)

theorem ofEvent_delayed {e e' : Event} (h : Event.Delayed delay e e') :
    Answered (EventInfo.Delayed delay) (EventInfo.ofEvent e) (EventInfo.ofEvent e') := by
  obtain ⟨hrest, hstamp⟩ := h
  rw [hrest]
  refine (Answered.of_eq rfl).bind ?_
  rintro fitted _ rfl
  exact .ok ⟨rfl, hstamp⟩

theorem eventsOf_delayed {es es' : List Event} (h : List.Forall₂ (Event.Delayed delay) es es') :
    Answered (List.Forall₂ (EventInfo.Delayed delay)) (eventsOf es) (eventsOf es') := by
  induction h with
  | nil => exact .ok .nil
  | cons he _ ih =>
    exact (ofEvent_delayed he).bind fun _ _ hinfo => ih.bind fun _ _ hothers =>
      .ok (.cons hinfo hothers)

theorem ofState_delayed {s s' : State} (h : State.Delayed delay s s') (room : String) :
    Answered (Snapshot.Delayed delay) (ofState room s) (ofState room s') := by
  have hplayers := playersOf_delayed h.players
  have hevents := eventsOf_delayed h.events
  obtain ⟨hrest, -, -, htime⟩ := h
  rw [hrest]
  refine hplayers.bind fun _ _ hplayers => hevents.bind fun _ _ hevents => ?_
  refine (Answered.of_eq rfl).bind ?_
  rintro fitted _ rfl
  exact .ok ⟨rfl, hplayers, hevents, htime⟩

end Snapshot

theorem Fit.orFault_answered {α : Type} {V : α → α → Prop} {a a' : Fit α} (h : Answered V a a') :
    Answered V a.orFault a'.orFault := by
  cases h with
  | ok h => exact .ok h
  | error misfits => exact .error _

namespace Room

/-! ### Answers -/

/-- Answers that show things which belong together. -/
def Showing {α : Type} (show' : α → Answer) (V : α → α → Prop) (a a' : Answer) : Prop :=
  ∃ x x', V x x' ∧ a = show' x ∧ a' = show' x'

/-- The same answer to a request, with times that lie later where it tells any. -/
def Answer.Delayed (delay : Int) : Request → Answer → Answer → Prop
  | .advanceClock _ => Showing (fun x => .document (.float x)) (DelayedReading delay)
  | .timestamp => Showing .text (DelayedStamp delay)
  | .addPlayer _ => Showing (fun p => .document p.toJson) (Player.Delayed delay)
  | .getPlayer _ =>
    Showing (fun p => .document (Json.optional Player.toJson p)) (Option.Rel (Player.Delayed delay))
  | .addEvent _ _ => Showing (fun e => .document e.toJson) (Event.Delayed delay)
  | .getEvents =>
    Showing (fun es => .document (.list (es.map Event.toJson))) (List.Forall₂ (Event.Delayed delay))
  | .apply _ => Showing (fun o => .document (shownOutcome o)) (Outcome.Delayed delay)
  | .applyAll _ _ =>
    Showing (fun os => .document (.list (os.map shownOutcome))) (DelayedOutcomes delay)
  | .act _ _ _ | .process _ _ _ => Showing (fun e => .document e.toJson) (Execution.Delayed delay)
  | .submit _ | .history | .playerHistory _ | .recentActions _ | .allRecent =>
    Showing .executions (List.Forall₂ (Execution.Delayed delay))
  | .seen => fun a a' => ∃ ticks ticks' errors,
    a = .notes ticks errors ∧ a' = .notes ticks' errors ∧
      List.Forall₂ (TickNote.Delayed delay) ticks.toList ticks'.toList
  | .summary => Showing (fun r => .document (.object r.summary)) (Room.Delayed delay)
  | .stateSummary => Showing (fun r => .document (.object r.stateSummary)) (Room.Delayed delay)
  | .state => Showing (fun s => .document s.toJson) (State.Delayed delay)
  | .snapshot => Showing .snapshot (Snapshot.Delayed delay)
  | _ => Same

end Room
end Gameroom
