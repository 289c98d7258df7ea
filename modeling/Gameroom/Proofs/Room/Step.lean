import Gameroom.Proofs.State.Step
import Gameroom.Room.Request

/-! The steps that a room can take. Every request is answered by such steps. -/

namespace Gameroom.Room

/-- What a step of a room does. -/
inductive Kind where
  | store (kind : State.Kind)
  /-- An action is asked for, and this comes of it. -/
  | acted (e : Execution)
  | joined
  | left
  /-- The state is made anew. -/
  | restarted
  /-- Cooldowns are set or cleared by hand. -/
  | byHand
  /-- The history is cleared. -/
  | cleared
  | aside

/-- Nothing changes that a game is played with. -/
structure Aside (r r' : Room) : Prop where
  definition : r'.definition = r.definition
  clock : r'.clock = r.clock
  state : r'.state = r.state
  cooldowns : r'.cooldowns = r.cooldowns
  history : r'.history = r.history
  ids : r.ids ≤ r'.ids

/-- One change of a room. -/
inductive Step : Kind → Room → Room → Prop
  | store {k : State.Kind} {r : Room} {s : State} (h : State.Step r.definition k r.state s)
      (hk : k.isPlay) : Step (.store k) r { r with state := s }
  | act (action player parameters : Json) (r : Room) :
      Step (.acted (process action player parameters r).1) r (process action player parameters r).2
  | join {p : Player} {r : Room} (h : p.id = playerId (r.ids + 1)) :
      Step .joined r { r with
        ids := r.ids + 1
        state := { r.state with players := r.state.players.put p.id p } }
  | drop (id : String) (r : Room) :
      Step .left r { r with state := { r.state with players := r.state.players.drop id } }
  | leave (id : String) (r : Room) :
      Step .left r { r with
        state := { r.state with players := r.state.players.drop id }
        cooldowns := r.cooldowns.drop id }
  | renew {r : Room} {s : State} {source : Source}
      (h : State.initial r.definition r.clock r.source = .ok s source) :
      Step .restarted r { r with state := s, source, recent := #[] }
  | reset {r : Room} {s : State} {source : Source}
      (h : State.initial r.definition r.clock r.source = .ok s source) :
      Step .restarted r
        { r with state := s, source, recent := #[], cooldowns := [], history := #[] }
  | byHand (c : Cooldowns) (r : Room) : Step .byHand r { r with cooldowns := c }
  | clear (r : Room) : Step .cleared r { r with history := #[] }
  | aside {r r' : Room} (h : Aside r r') : Step .aside r r'

def Options.still : Options where
  id := some "still"
  config := ⟨.int 16, .int 50, .int 1, "INFO"⟩
  clock := 0
  host := 0
  source := some (.cycle [] 0)
  ids := 0
  gated := false
  threaded := false

namespace Kind

/-- What needs no request of its own. -/
def isOrdinary : Kind → Prop
  | restarted | byHand | cleared => False
  | _ => True

end Kind

namespace Request

def restarts : Request → Bool
  | .renew | .reset => true
  | _ => false

def handlesCooldowns : Request → Bool
  | .setCooldown .. | .clearCooldown .. | .clearPlayerCooldowns .. | .clearAllCooldowns => true
  | _ => false

def clearsHistory : Request → Bool
  | .clearHistory => true
  | _ => false

def setsClock : Request → Bool
  | .advanceClock .. | .setClock .. => true
  | _ => false

/-- The kinds of steps by which a request may be answered. -/
def permits (q : Request) : Kind → Prop
  | .restarted => q.restarts
  | .byHand => q.handlesCooldowns
  | .cleared => q.clearsHistory
  | _ => True

end Request

theorem permits_of_ordinary (q : Request) (k : Kind) (h : k.isOrdinary) : q.permits k := by
  cases k <;> trivial

def made (d : Definition) (o : Options) (state : State) (source : Source) (timestep : Float) :
    Room where
  id := o.idOf
  definition := d
  clock := o.clock
  ids := o.idsAfter
  source
  state
  cooldowns := []
  history := #[]
  recent := #[]
  loop := Loop.idle timestep o.config.maxFrame o.host
  met := []
  firedAt := []
  gated := o.gated
  threaded := o.threaded
  closed := false
  tickNotes := #[]
  errorNotes := #[]

theorem create_eq {d : Definition} {o : Options} {s : State} {source : Source} {timestep : Float}
    (hs : State.initial d o.clock (o.sourceFor d) = .ok s source)
    (htimestep : Loop.timestepOf o.config.timestep = .ok timestep) :
    create d o = .ok (made d o s source timestep) := by
  rw [create, hs]
  simp only [htimestep]
  rfl

theorem made_of_create {d : Definition} {o : Options} {r : Room} (h : create d o = .ok r) :
    ∃ s source timestep, State.initial d o.clock (o.sourceFor d) = .ok s source ∧
      Loop.timestepOf o.config.timestep = .ok timestep ∧ r = made d o s source timestep := by
  unfold create at h
  cases hs : State.initial d o.clock (o.sourceFor d) with
  | error fault source =>
    rw [hs] at h
    cases h
  | ok s source =>
    rw [hs] at h
    obtain ⟨timestep, htimestep, h⟩ := ok_of_bind h
    cases h
    exact ⟨s, source, timestep, rfl, htimestep, rfl⟩

theorem create_ok {d : Definition} {o : Options} {r : Room} (h : create d o = .ok r) :
    r.definition = d ∧ ∃ source, State.initial d o.clock (o.sourceFor d) = .ok r.state source := by
  obtain ⟨s, source, timestep, hs, -, rfl⟩ := made_of_create h
  exact ⟨rfl, source, hs⟩

theorem run_append (qs qs' : List Request) (r : Room) :
    (run (qs ++ qs') r).2 = (run qs' (run qs r).2).2 := by
  induction qs generalizing r with
  | nil => rfl
  | cons q qs ih => exact ih _

theorem run_concat (qs : List Request) (q : Request) (r : Room) :
    (run (qs ++ [q]) r).2 = ((perform q).outcome (run qs r).2).2 := run_append qs [q] r

/-- One room leads to another by steps that need no request of their own. -/
abbrev Goes : Room → Room → Prop := Leads Step Kind.isOrdinary

theorem Step.goes {k : Kind} {r r' : Room} (h : Step k r r') (hk : k.isOrdinary) : Goes r r' :=
  .single hk h

theorem Aside.goes {r r' : Room} (h : Aside r r') : Goes r r' := Step.goes (.aside h) trivial

theorem plays_goes {r : Room} {s : State} (h : State.Plays r.definition r.state s) :
    Goes r { r with state := s } := by
  obtain ⟨ks, hks, hc⟩ := h
  -- The induction is on the steps of the state, so the room has to go along with them.
  suffices ∀ r' : Room, r'.definition = r.definition → r'.state = r.state →
      Goes r' { r' with state := s } from this r rfl rfl
  generalize r.state = s₀ at hc
  induction hc with
  | nil s =>
    rintro r' - rfl
    exact .refl r'
  | @cons k ks s₁ s₂ s₃ step _ ih =>
    rintro r' hd rfl
    have hnext := ih (fun k h => hks k (List.mem_cons_of_mem _ h)) { r' with state := s₂ } hd rfl
    exact (Step.goes (.store (hd ▸ step) (hks _ List.mem_cons_self)) trivial).trans hnext

theorem Aside.withLoop (r : Room) (l : Loop) : Aside r { r with loop := l } :=
  ⟨rfl, rfl, rfl, rfl, rfl, le_rfl⟩

end Gameroom.Room
