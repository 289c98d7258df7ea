import Gameroom.Proofs.Room.Process
import Gameroom.Proofs.Room.Requests
import Gameroom.Proofs.State.Variables

/-! Variables stay within their bounds over every run of a room. -/

namespace Gameroom.Room

/-- One state of a definition leads to another, whatever its steps do. -/
abbrev Reaches (d : Definition) : State → State → Prop := Leads (State.Step d) fun _ => True

theorem reaches_of_plays {d : Definition} {s s' : State} (h : State.Plays d s s') :
    Reaches d s s' := h.weaken fun _ _ => trivial

/-- The definition of a room stays, and its state takes steps of its own. -/
structure Carries (r r' : Room) : Prop where
  definition : r'.definition = r.definition
  state : Reaches r.definition r.state r'.state

theorem Step.carries {k : Kind} {r r' : Room} (h : Step k r r') (hk : k ≠ .restarted) :
    Carries r r' := by
  cases h with
  | store h _ => exact ⟨rfl, .single trivial h⟩
  | act action player parameters => exact ⟨rfl, reaches_of_plays process_plays⟩
  | join h => exact ⟨rfl, .single trivial (.join _ r.state)⟩
  | drop id => exact ⟨rfl, .single trivial (.leave id r.state)⟩
  | leave id => exact ⟨rfl, .single trivial (.leave id r.state)⟩
  | renew | reset => exact absurd rfl hk
  | byHand | clear => exact ⟨rfl, .refl r.state⟩
  | aside h =>
    refine ⟨h.definition, ?_⟩
    rw [h.state]
    exact .refl r.state

theorem Carries.trans {r r' r'' : Room} (h : Carries r r') (h' : Carries r' r'') :
    Carries r r'' :=
  ⟨h'.definition.trans h.definition, h.state.trans (h.definition ▸ h'.state)⟩

theorem carries_of_leads {ok : Kind → Prop} (hok : ¬ ok .restarted) {r r' : Room}
    (h : Leads Step ok r r') : Carries r r' := by
  refine h.keeps (P := Carries r) (fun k s s' hk hs hr => hr.trans (hs.carries ?_))
    ⟨rfl, .refl r.state⟩
  rintro rfl
  exact hok hk

theorem perform_carries {q : Request} (hq : q.restarts = false) (r : Room) :
    Carries r ((perform q).outcome r).2 := by
  cases hclock : q.setsClock with
  | true =>
    obtain ⟨clock, h⟩ := perform_clock q r hclock
    rw [h]
    exact ⟨rfl, .refl r.state⟩
  | false =>
    exact carries_of_leads (by simp [Request.permits, hq]) (perform_moves q r hclock)

/-! ### Runs -/

/-- The state at the last time it was made anew; before that, the one that is given. -/
def origin : List Request → Room → State → State
  | [], _, first => first
  | q :: qs, r, first =>
    let (answer, next) := (perform q).outcome r
    origin qs next (if q.restarts && answer.isOk then next.state else first)

def IsFirst (d : Definition) (s : State) : Prop :=
  ∃ now source source', State.initial d now source = .ok s source'

/-- Since its state was made anew, a room has only taken steps of its definition. -/
structure Since (d : Definition) (first : State) (r : Room) : Prop where
  definition : r.definition = d
  isFirst : IsFirst d first
  state : Reaches d first r.state

theorem Since.perform {d : Definition} {first : State} {r : Room} (h : Since d first r)
    (q : Request) :
    Since d (if q.restarts && ((perform q).outcome r).1.isOk then ((perform q).outcome r).2.state
      else first) ((perform q).outcome r).2 := by
  obtain ⟨rfl, hfirst, hstate⟩ := h
  cases hq : q.restarts with
  | false =>
    have hc := perform_carries hq r
    exact ⟨hc.definition, hfirst, hstate.trans hc.state⟩
  | true =>
    rcases perform_restart hq r with ⟨fault, r', hr, hgoes⟩ | ⟨r', hr, r₁, r₂, hgoes, hstep, haside⟩
    -- A reset that fails leaves the state where its origin was.
    · have hc := carries_of_leads (by simp [Kind.isOrdinary]) hgoes
      rw [hr]
      exact ⟨hc.definition, hfirst, hstate.trans hc.state⟩
    · have hc := carries_of_leads (by simp [Kind.isOrdinary]) hgoes
      rw [hr]
      have hmade : r₂.definition = r.definition ∧ IsFirst r.definition r₂.state := by
        cases hstep with
        | renew h | reset h => exact ⟨hc.definition, hc.definition ▸ ⟨_, _, _, h⟩⟩
      refine ⟨haside.definition.trans hmade.1, ?_, .refl _⟩
      change IsFirst r.definition r'.state
      rw [haside.state]
      exact hmade.2

theorem since_run {d : Definition} (qs : List Request) {first : State} {r : Room}
    (h : Since d first r) : Since d (origin qs r first) (run qs r).2 := by
  induction qs generalizing r first with
  | nil => exact h
  | cons q qs ih => exact ih (h.perform q)

theorem since_create {d : Definition} {o : Options} {r : Room} (h : create d o = .ok r) :
    Since d r.state r := by
  obtain ⟨hdefinition, source, hs⟩ := create_ok h
  exact ⟨hdefinition, ⟨_, _, source, hs⟩, .refl r.state⟩

/-- Over every run of a room its variables are those of the definition. A variable that was not
written since the state was last made anew holds what it held then; any other holds a number that
its bounds leave as it is. -/
theorem variables_bounded {d : Definition} (hd : d.Parsed) {o : Options} {r : Room}
    (hr : create d o = .ok r) (qs : List Request) :
    (run qs r).2.state.vars.keys = d.vars.keys ∧
    IsFirst d (origin qs r r.state) ∧
    ∃ ks, Chain (State.Step d) ks (origin qs r r.state) (run qs r).2.state ∧
      ∀ name v, d.vars.get? name = some v →
        ∃ n, (run qs r).2.state.vars.get? name = some n ∧
          ((name ∉ State.writes ks ∧ (origin qs r r.state).vars.get? name = some n) ∨
            (n.isNaN = false ∧ v.clamp n = n ∧
              (v.min.le v.max → v.min.le n ∧ n.le v.max) ∧ (v.max.lt v.min → n = v.min))) := by
  obtain ⟨-, hfirst, ks, -, hc⟩ := since_run qs (since_create hr)
  obtain ⟨now, source, source', hinit⟩ := hfirst
  have hkeys := State.keys_initial hinit
  have hheld := (State.held_first hkeys).chain hd.valued hc
  refine ⟨hheld.keys, ⟨now, source, source', hinit⟩, ks, hc, fun name v hv => ?_⟩
  have hhas : (run qs r).2.state.vars.has name := by
    rw [Table.has_iff_mem_keys, hheld.keys, ← Table.has_iff_mem_keys, Table.has, hv]
    rfl
  obtain ⟨n, hn⟩ := Option.isSome_iff_exists.1 hhas
  refine ⟨n, hn, ?_⟩
  rcases hheld.value name v n hv hn with hold | ⟨hnan, hfix⟩
  · exact .inl hold
  · have hvalued := hd.valued.vars _ (Table.mem_of_get? hv)
    exact .inr ⟨hnan, hfix,
      Number.between_of_clamp hfix hvalued.min.notNaN hvalued.max.notNaN, Number.eq_of_clamp hfix⟩

def gauge : Table Json :=
  [("meta", .object []),
    ("vars", .object [("level", .object [("value", .int 3), ("min", .int 0), ("max", .int 10)])])]

theorem variables_bounded_gauge :
    ∃ d r, d.Parsed ∧ create d .still = .ok r ∧
      (run [.setVariable (.text "level") (.int 70)] r).2.state.vars.keys = d.vars.keys ∧
      (run [.setVariable (.text "level") (.int 70)] r).2.state.vars.get? "level" =
        some (.int 10) := by
  refine ⟨_, _, ⟨gauge, rfl⟩, rfl, ?_, rfl⟩
  exact (variables_bounded ⟨gauge, rfl⟩ (show create _ .still = .ok _ from rfl) _).1

end Gameroom.Room
