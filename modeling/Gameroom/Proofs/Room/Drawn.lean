import Gameroom.Definition.Review
import Gameroom.Proofs.Room.Bounds
import Gameroom.Proofs.Room.Draws

/-!
What a clean review says of the variables of a run. A review compares first values with bounds and
looks at no range, so the variables stay between their bounds exactly if what is drawn when the
state is made lies between them.
-/

namespace Gameroom

/-- Whether a number lies between the bounds of a variable. -/
def Variable.Spans (v : Variable) (n : Number) : Prop := v.min.le n ∧ n.le v.max

theorem Definition.spans_of_review {d : Definition} (hd : d.Valued) (h : d.review = [])
    {name : String} {v : Variable} (hv : d.vars.get? name = some v) :
    v.Spans v.value := by
  have hmem := Table.mem_of_get? hv
  have hvalued := hd.vars _ hmem
  have hnone : reviewVariable name v = [] := by
    simp only [review, List.append_eq_nil_iff, List.flatMap_eq_nil_iff] at h
    exact h.1.1.1.1.1 _ hmem
  unfold reviewVariable at hnone
  split_ifs at hnone with hmax hbetween
  exact Bool.and_eq_true_iff.1 hbetween

namespace State
variable {d : Definition} {s first : State}

/-- Each variable holds a number between its bounds. -/
def Bounded (d : Definition) (s : State) : Prop :=
  ∀ name v, d.vars.get? name = some v → ∃ n, s.vars.get? name = some n ∧ v.Spans n

/-- Each variable that is drawn at a start holds a number between its bounds. -/
def DrawnInside (d : Definition) (s : State) : Prop :=
  ∀ start, d.start = some start → ∀ name ∈ start.vars.keys, ∀ v, d.vars.get? name = some v →
    ∃ n, s.vars.get? name = some n ∧ v.Spans n

theorem Bounded.drawnInside (h : Bounded d s) : DrawnInside d s :=
  fun _ _ name _ v hv => h name v hv

/-! ### First values -/

theorem get?_drawVariables {ranges : Table (Number × Number)} {values values' : Table Number}
    {source source' : Source} {name : String} (hname : name ∉ ranges.keys)
    (h : drawVariables d values ranges source = .ok values' source') :
    values'.get? name = values.get? name := by
  induction ranges generalizing values source with
  | nil =>
    cases h
    rfl
  | cons range rest ih =>
    obtain ⟨drawn, low, high⟩ := range
    obtain ⟨hne, hrest⟩ : name ≠ drawn ∧ name ∉ Table.keys rest := by
      simpa [Table.keys] using hname
    unfold drawVariables at h
    split at h
    · obtain ⟨x, source₁, -, h⟩ := Task.ok_of_bind h
      rw [ih hrest h, Table.get?_put_of_ne _ _ hne.symm]
    · exact ih hrest h

theorem get?_initial {now : Float} {source source' : Source}
    (h : initial d now source = .ok s source') {name : String} {v : Variable}
    (hv : d.vars.get? name = some v)
    (hname : ∀ start, d.start = some start → name ∉ start.vars.keys) :
    s.vars.get? name = some v.value := by
  have hvalue : (d.vars.mapValues Variable.value).get? name = some v.value := by
    rw [Table.get?_mapValues, hv]
    rfl
  obtain ⟨values, entities, rfl, ⟨-, rfl⟩ | ⟨start, hstart, hdraw⟩⟩ := initial_ok h
  · exact hvalue
  · exact (get?_drawVariables (hname start hstart) hdraw).trans hvalue

theorem DrawnInside.bounded (h : DrawnInside d s) (hd : d.Valued) (hclean : d.review = [])
    {now : Float} {source source' : Source} (hs : initial d now source = .ok s source') :
    Bounded d s := by
  intro name v hv
  by_cases hname : ∃ start, d.start = some start ∧ name ∈ start.vars.keys
  · obtain ⟨start, hstart, hmem⟩ := hname
    exact h start hstart name hmem v hv
  · push Not at hname
    exact ⟨v.value, get?_initial hs hv hname, Definition.spans_of_review hd hclean hv⟩

theorem Held.bounded {written : List String} (h : Held d first written s) (hd : d.Valued)
    (hclean : d.review = []) (hfirst : Bounded d first) : Bounded d s := by
  intro name v hv
  have hhas : s.vars.has name := by
    rw [Table.has_iff_mem_keys, h.keys, ← Table.has_iff_mem_keys, Table.has, hv]
    rfl
  obtain ⟨n, hn⟩ := Option.isSome_iff_exists.1 hhas
  refine ⟨n, hn, ?_⟩
  rcases h.value name v n hv hn with ⟨-, hold⟩ | ⟨-, hfix⟩
  · obtain ⟨m, hm, hspans⟩ := hfirst name v hv
    rw [hold] at hm
    cases hm
    exact hspans
  · have hvalued := hd.vars _ (Table.mem_of_get? hv)
    have hspans := Definition.spans_of_review hd hclean hv
    exact Number.between_of_clamp hfix hvalued.min.notNaN hvalued.max.notNaN
      (Number.le_trans hspans.1 hspans.2)

end State

namespace Room
variable {d : Definition} {o : Options} {r : Room}

theorem Since.bounded {first : State} (h : Since d first r) (hd : d.Valued)
    (hclean : d.review = []) (hdrawn : State.DrawnInside d first) : State.Bounded d r.state := by
  obtain ⟨-, ⟨now, source, source', hinit⟩, ks, -, hc⟩ := h
  exact ((State.held_first (State.keys_initial hinit)).chain hd hc).bounded hd hclean
    (hdrawn.bounded hd hclean hinit)

theorem origin_mem (qs : List Request) (r : Room) (first : State) :
    origin qs r first = first ∨ ∃ qs', qs' <+: qs ∧ origin qs r first = (run qs' r).2.state := by
  induction qs generalizing r first with
  | nil => exact .inl rfl
  | cons q qs ih =>
    obtain ⟨made, next, hnext, hmade⟩ : ∃ (made : Bool) (next : Room),
        next = ((perform q).outcome r).2 ∧
          origin (q :: qs) r first = origin qs next (if made then next.state else first) :=
      ⟨_, _, rfl, rfl⟩
    rw [hmade]
    rcases ih next (if made then next.state else first) with hfirst | ⟨qs', hqs', hstate⟩
    · rw [hfirst]
      cases made with
      | true => exact .inr ⟨[q], List.prefix_append [q] qs, congrArg Room.state hnext⟩
      | false => exact .inl rfl
    · refine .inr ⟨q :: qs', (List.prefix_cons_inj q).2 hqs', hstate.trans ?_⟩
      rw [hnext]
      rfl

/-- In a run of a definition whose review finds nothing, all variables are always between their
bounds exactly if each state that was made, at first or anew, drew its values between them. -/
theorem bounded_iff_drawn_inside (hd : d.Parsed) (hclean : d.review = [])
    (hr : create d o = .ok r) (qs : List Request) :
    (∀ qs', qs' <+: qs → State.Bounded d (run qs' r).2.state) ↔
      ∀ qs', qs' <+: qs → State.DrawnInside d (origin qs' r r.state) := by
  constructor
  · intro h qs' hqs'
    rcases origin_mem qs' r r.state with hfirst | ⟨qs'', hqs'', hstate⟩
    · rw [hfirst]
      exact (h [] (List.nil_prefix)).drawnInside
    · rw [hstate]
      exact (h qs'' (hqs''.trans hqs')).drawnInside
  · intro h qs' hqs'
    exact (since_run qs' (since_create hr)).bounded hd.valued hclean (h qs' hqs')

/-- The fields of a game whose review finds nothing, with a variable between 0 and 10 that starts
with a value drawn from a range. -/
def gambling (low high : Int) : Table Json :=
  [("meta", .object []),
    ("vars", .object [("level", .object [("value", .int 3), ("min", .int 0), ("max", .int 10)])]),
    ("actions", .list [.object [("name", .text "bet"), ("effects", .list [
      .object [("type", .text "modify_var"), ("target", .text "level"), ("operation", .text "add"),
        ("value", .int 1)]])]]),
    ("init_random", .object [("vars", .object [
      ("level", .object [("min", .int low), ("max", .int high)])])])]

def betting : List Request :=
  [.addPlayer (.object []), .act (.text "bet") (.text (playerId 1)) .null, .reset]

theorem bounded_iff_drawn_inside_gambling :
    ∃ d r, d.Parsed ∧ d.review = [] ∧ create d .sampled = .ok r ∧
      (∀ qs', qs' <+: betting → State.Bounded d (run qs' r).2.state) ∧
      (origin betting r r.state).vars.get? "level" = some (.float 5.0) := by
  obtain ⟨d, hd⟩ : ∃ d, Definition.ofFields (gambling 2 6) = .ok d := ⟨_, rfl⟩
  obtain ⟨r, hr⟩ : ∃ r, create d .sampled = .ok r := by
    cases hd
    exact ⟨_, rfl⟩
  have hclean : d.review = [] := by
    cases hd
    decide +kernel
  have hlevel : ∀ qs' ∈ betting.inits, ((origin qs' r r.state).vars.get? "level").any
      (fun n => (Number.int 0).le n && n.le (.int 10)) := by
    cases hd
    cases hr
    decide +kernel
  have hiff := bounded_iff_drawn_inside ⟨_, hd⟩ hclean hr betting
  refine ⟨d, r, ⟨_, hd⟩, hclean, hr, hiff.2 fun qs' hqs' start hstart name hname v hv => ?_, ?_⟩
  · have hmem := (List.mem_inits qs' betting).2 hqs'
    obtain ⟨n, hn, hbetween⟩ := (Option.any_eq_true _ _).1 (hlevel qs' hmem)
    cases hd
    cases hstart
    cases List.mem_singleton.1 hname
    cases hv
    exact ⟨n, hn, Bool.and_eq_true_iff.1 hbetween⟩
  · cases hd
    cases hr
    decide +kernel

/-- A review finds nothing, and still the game starts with a value beyond its bounds. -/
theorem unbounded_gambling :
    ∃ d r, d.Parsed ∧ d.errors = [] ∧ d.warnings = [] ∧ create d .sampled = .ok r ∧
      ¬ State.Bounded d r.state := by
  obtain ⟨d, hd⟩ : ∃ d, Definition.ofFields (gambling 50 90) = .ok d := ⟨_, rfl⟩
  obtain ⟨r, hr⟩ : ∃ r, create d .sampled = .ok r := by
    cases hd
    exact ⟨_, rfl⟩
  have hclean : d.errors = [] ∧ d.warnings = [] := by
    cases hd
    decide +kernel
  refine ⟨d, r, ⟨_, hd⟩, hclean.1, hclean.2, hr, fun h => ?_⟩
  cases hd
  cases hr
  obtain ⟨n, hn, -, hmax⟩ := h "level" _ rfl
  cases hn
  revert hmax
  decide +kernel

end Room
end Gameroom
