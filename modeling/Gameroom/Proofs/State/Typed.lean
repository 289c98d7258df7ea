import Gameroom.Proofs.Definition.Worded
import Gameroom.Proofs.Effect.Local
import Gameroom.Proofs.State.Course
import Gameroom.Proofs.State.Variables

/-!
The types that a state of play keeps on the course of a game: variables and scores are numbers that
come to floats, the feed and the log hold texts, nobody is named as the winner.
-/

namespace Gameroom

def Number.Floats (n : Number) : Prop := ∃ x, n.toFloat = .ok x

theorem Number.Valued.floats {n : Number} (h : n.Valued) : n.Floats := ⟨_, h.choose_spec.1⟩

theorem Number.clamp_floats {lo hi n : Number} (hlo : lo.Floats) (hhi : hi.Floats)
    (hn : n.Floats) : (clamp lo hi n).Floats := by
  unfold clamp Number.max Number.min
  split_ifs <;> assumption

namespace Json

def IsText (value : Json) : Prop := ∃ s, value = .text s

instance : DecidablePred IsText
  | text s => .isTrue ⟨s, rfl⟩
  | null | bool _ | number _ | list _ | object _ => .isFalse nofun

def IsScore (value : Json) : Prop := ∃ n : Number, value = .number n ∧ n.Floats

theorem isScore_of_ok {value : Json} (h : isScore value = .ok true) : value.IsScore := by
  cases value with
  | number n =>
    obtain ⟨x, hx, -⟩ := ok_of_map h
    exact ⟨n, rfl, x, hx⟩
  | _ => cases h

end Json

namespace Effect
variable {d : Definition} {now : Float} {s : State}

/-- What an effect looked at before it was applied. -/
def Checked : Effect → Prop
  | updateScore _ score => isScore score = .ok true
  | addLog line => line.truthy
  | addEvent type line => type.truthy ∧ line.truthy
  | _ => True

theorem verdict_checked {e : Effect} {v : Verdict} {s' : State} (h : e.verdict d now s = .ok v s')
    (hv : v.isApplied) : e.Checked := by
  cases e with
  -- Only the kinds that look at their value before they apply need a case.
  | updateScore player score =>
    change applyUpdateScore player score s = .ok v s' at h
    unfold applyUpdateScore at h
    by_cases hplayer : player.truthy
    · rw [if_neg (by simp [hplayer])] at h
      obtain ⟨scored, s₁, hlook, h⟩ := Task.ok_of_bind h
      cases scored with
      | true => exact (Task.ok_of_look hlook).1
      | false =>
        cases h
        cases hv
    · rw [if_pos (by simp [hplayer])] at h
      cases h
      cases hv
  | addLog line =>
    change applyAddLog line s = .ok v s' at h
    unfold applyAddLog at h
    by_cases hline : line.truthy
    · exact hline
    · rw [if_pos (by simp [hline])] at h
      cases h
      cases hv
  | addEvent type line =>
    change applyAddEvent now type line s = .ok v s' at h
    unfold applyAddEvent at h
    by_cases hwords : type.truthy && line.truthy
    · exact Bool.and_eq_true_iff.1 hwords
    · rw [if_pos (by simp [hwords])] at h
      cases h
      cases hv
  | _ => trivial

theorem apply_moves {R : State → State → Prop} [IsPreorder State R] (e : Effect)
    (h : ∀ s', e.Changes d s s' → e.Checked → R s s') : (e.apply d now).Moves R s := by
  have hverdict := verdict_atomic d now e s
  unfold Task.Atomic at hverdict
  cases hrun : e.verdict d now s with
  | error fault s' =>
    rw [hrun] at hverdict
    have happly : e.apply d now s = .error fault s' := Task.bind_error hrun
    rw [Task.Moves, Task.outcome_error happly]
    exact hverdict ▸ refl_of R s
  | ok v s' =>
    rw [hrun] at hverdict
    have happly : e.apply d now s = .ok ⟨e, v⟩ s' := Task.bind_ok hrun
    rw [Task.Moves, Task.outcome_ok happly]
    dsimp only at hverdict ⊢
    split_ifs at hverdict with hv
    · exact h s' hverdict (verdict_checked hrun hv)
    · exact hverdict ▸ refl_of R s

end Effect

namespace State

/-- A state whose parts have the types of a picture, but for the actions that players asked for. -/
structure Typed (s : State) : Prop where
  vars : ∀ e ∈ s.vars, e.2.Floats
  score : ∀ e ∈ s.score, e.2.IsScore
  players : ∀ e ∈ s.players, e.2.score.IsScore
  events : ∀ e ∈ s.events.toList, e.type.IsText ∧ e.message.IsText
  logs : ∀ line ∈ s.logs.toList, line.IsText
  winner : s.winner = .null

/-- A state with the types of another. -/
abbrev KeepsTypes (s s' : State) : Prop := s.Typed → s'.Typed

instance : IsPreorder State KeepsTypes where
  refl _ h := h
  trans _ _ _ h h' hs := h' (h hs)

theorem keepsTypes_of_same {s s' : State} (hvars : s'.vars = s.vars) (hscore : s'.score = s.score)
    (hplayers : s'.players = s.players) (hevents : s'.events = s.events) (hlogs : s'.logs = s.logs)
    (hwinner : s'.winner = s.winner) : KeepsTypes s s' := fun h =>
  ⟨hvars ▸ h.vars, hscore ▸ h.score, hplayers ▸ h.players, hevents ▸ h.events, hlogs ▸ h.logs,
    hwinner ▸ h.winner⟩

theorem settled_floats {v : Variable} (hv : v.Valued) {value : Json} {n : Number}
    (h : settled v value = .ok n) : n.Floats := by
  unfold settled at h
  split at h
  · obtain ⟨nan, hnan, h⟩ := ok_of_bind h
    obtain ⟨x, hx, -⟩ := ok_of_map hnan
    split at h
    · cases h
      exact hv.value.floats
    · split at h <;> cases h
      · exact hv.max.floats
      · exact hv.min.floats
      · exact ⟨x, hx⟩
  · cases h
    exact hv.value.floats

variable {d : Definition} {s s' : State}

theorem setVariable_typed (hd : d.Valued) {name : String} {value : Json}
    (h : s.setVariable d name value = .ok (true, s')) : KeepsTypes s s' := by
  intro hs
  unfold setVariable at h
  split at h
  · cases h
  · rename_i v hv
    obtain ⟨n, hn, h⟩ := ok_of_bind h
    cases h
    have hvalued := hd.vars _ (Table.mem_of_get? hv)
    have hclamped : (v.clamp n).Floats := Number.clamp_floats hvalued.min.floats
      hvalued.max.floats (settled_floats hvalued hn)
    exact ⟨Table.forall_put (P := Number.Floats) hs.vars name hclamped, hs.score, hs.players,
      hs.events, hs.logs, hs.winner⟩

theorem updateScore_typed (id : String) {score : Json} (h : score.IsScore) (s : State) :
    KeepsTypes s (s.updateScore id score) := by
  intro hs
  refine ⟨hs.vars, Table.forall_put (P := Json.IsScore) hs.score id h, ?_, hs.events, hs.logs,
    hs.winner⟩
  unfold updateScore
  dsimp only
  split
  · exact Table.forall_put (P := fun p : Player => p.score.IsScore) hs.players id h
  · exact hs.players

theorem removePlayer_typed (id : Json) (s : State) : KeepsTypes s (removePlayer id s).2 := by
  intro hs
  unfold removePlayer
  split
  · split_ifs
    · exact ⟨hs.vars, hs.score,
        Table.forall_drop (P := fun p : Player => p.score.IsScore) hs.players _, hs.events, hs.logs,
        hs.winner⟩
    · exact hs
  · exact hs

theorem setStatus_typed (next : Status) (s : State) : KeepsTypes s (s.setStatus next).2 := by
  unfold setStatus
  split <;> exact keepsTypes_of_same rfl rfl rfl rfl rfl rfl

theorem changes_typed (hd : d.Valued) {e : Effect} (he : e.Worded) (h : e.Changes d s s')
    (hchecked : e.Checked) : KeepsTypes s s' := by
  cases h with
  | setVar h | modifyVar h => exact setVariable_typed hd h
  | @setEntity target entity properties _ h =>
    have hframe := (setProperties_same entity properties s).frame
    intro hs
    rw [hframe]
    exact ⟨hs.vars, hs.score, hs.players, hs.events, hs.logs, hs.winner⟩
  | triggerEvent | message => exact fun hs => hs
  | updateScore h => exact updateScore_typed _ (Json.isScore_of_ok hchecked) s
  | addLog line =>
    intro hs
    refine ⟨hs.vars, hs.score, hs.players, hs.events, ?_, hs.winner⟩
    simp only [addLog, Array.toList_push, List.forall_mem_append, List.forall_mem_singleton]
    exact ⟨hs.logs, Json.IsWord.text he hchecked⟩
  | addEvent h =>
    obtain ⟨timestamp, -, h⟩ := ok_of_bind h
    cases h
    intro hs
    refine ⟨hs.vars, hs.score, hs.players, ?_, hs.logs, hs.winner⟩
    simp only [Array.toList_push, List.forall_mem_append, List.forall_mem_singleton]
    exact ⟨hs.events, Json.IsWord.text he.1 hchecked.1, Json.IsWord.text he.2 hchecked.2⟩
  | setStatus => exact keepsTypes_of_same rfl rfl rfl rfl rfl rfl

theorem recorded_typed (e : Execution) (s : State) : KeepsTypes s (s.recorded e) := by
  intro hs
  have hfollowed : (s.followed e).Typed := by
    unfold followed
    split <;> exact ⟨hs.vars, hs.score, hs.players, hs.events, hs.logs, hs.winner⟩
  unfold recorded listed
  split
  · rename_i p hp
    refine ⟨hfollowed.vars, hfollowed.score, ?_, hfollowed.events, hfollowed.logs,
      hfollowed.winner⟩
    have hscore : p.score.IsScore := by
      cases hplayer : e.player with
      | text id =>
        rw [hplayer] at hp
        exact hfollowed.players _ (Table.mem_of_get? hp)
      | _ =>
        rw [hplayer] at hp
        cases hp
    exact Table.forall_put (P := fun p : Player => p.score.IsScore) hfollowed.players p.id hscore
  · exact hfollowed

theorem Course.typed (hd : d.Parsed) {es : List Execution} (h : Course d es s s') :
    KeepsTypes s s' := by
  refine h.keeps fun es s s' hdeed => ?_
  cases hdeed with
  | effect he now =>
    exact Effect.apply_moves (R := KeepsTypes) _ fun _ hchanges hchecked =>
      changes_typed hd.valued (hd.worded _ he) hchanges hchecked
  | count => exact keepsTypes_of_same rfl rfl rfl rfl rfl rfl
  | move next => exact setStatus_typed next _
  | record e => exact recorded_typed e _

end State

/-! ### A state made anew -/

namespace Source
variable {source source' : Source}

def Floats (source : Source) : Prop :=
  ∀ samples, source.given? = some samples → ∀ x ∈ samples, ∃ y, x = .float y

/-- Samples come from where they came from. -/
def SameGiven (source source' : Source) : Prop := source'.given? = source.given?

instance : IsPreorder Source SameGiven where
  refl _ := rfl
  trans _ _ _ h h' := h'.trans h

theorem SameGiven.floats (h : SameGiven source source') (hs : source.Floats) : source'.Floats :=
  fun samples hsamples => hs samples (h ▸ hsamples)

theorem draw_given (source : Source) : draw.Moves SameGiven source :=
  Task.moves_step fun _ _ => sample_given

theorem uniform_given (low high : Number) (source : Source) :
    (uniform low high).Moves SameGiven source :=
  (Task.moves_look _ source).bind fun _ source₁ _ =>
    (draw_given source₁).bind fun _ source₂ _ => Task.moves_look _ source₂

theorem sample_float {x : Number} (hs : source.Floats) (h : source.sample = .ok (x, source')) :
    ∃ y, x = .float y := sample_forall (P := fun x => ∃ y, x = .float y) (fun _ => ⟨_, rfl⟩) hs h

theorem arithmetic_float {exact : Int → Int → Int} {rounded : Float → Float → Float} {a n : Number}
    {y : Float} (h : Number.arithmetic exact rounded a (.float y) = .ok n) :
    ∃ z, n = .float z := by
  unfold Number.arithmetic at h
  split at h
  · cases ‹Number.float y = _›
  · obtain ⟨b, -, h⟩ := ok_of_bind h
    obtain ⟨c, -, h⟩ := ok_of_bind h
    cases h
    exact ⟨_, rfl⟩

theorem uniform_ok {low high x : Number} (h : uniform low high source = .ok x source') :
    ∃ width sample product, high.sub low = .ok width ∧
      source.sample = .ok (sample, source') ∧ width.mul sample = .ok product ∧
      low.add product = .ok x := by
  obtain ⟨width, source₁, hwidth, h⟩ := Task.ok_of_bind h
  obtain ⟨sample, source₂, hsample, h⟩ := Task.ok_of_bind h
  obtain ⟨hsum, rfl⟩ := Task.ok_of_look h
  obtain ⟨product, hproduct, hsum⟩ := ok_of_bind hsum
  obtain ⟨hwide, rfl⟩ := Task.ok_of_look hwidth
  refine ⟨width, sample, product, hwide, ?_, hproduct, hsum⟩
  unfold draw Task.step at hsample
  split at hsample
  · cases hsample
    assumption
  · cases hsample

theorem uniform_float {low high x : Number} (hs : source.Floats)
    (h : uniform low high source = .ok x source') : ∃ y, x = .float y := by
  obtain ⟨width, sample, product, -, hsample, hproduct, hsum⟩ := uniform_ok h
  obtain ⟨y, rfl⟩ := sample_float hs hsample
  obtain ⟨z, rfl⟩ := arithmetic_float hproduct
  exact arithmetic_float hsum

end Source

namespace State

variable {d : Definition} {source : Source}

theorem drawVariables_given (values : Table Number) (ranges : Table (Number × Number))
    (source : Source) : (drawVariables d values ranges).Moves Source.SameGiven source := by
  induction ranges generalizing values source with
  | nil => exact Task.moves_pure values source
  | cons range rest ih =>
    unfold drawVariables
    split
    · exact (Source.uniform_given _ _ source).bind fun _ source₁ _ => ih _ source₁
    · exact ih _ source

theorem initial_given (now : Float) (source : Source) :
    (initial d now).Moves Source.SameGiven source := by
  unfold initial
  dsimp only
  split
  · exact Task.moves_pure _ source
  · exact (drawVariables_given _ _ source).bind fun _ source₁ _ => Task.moves_pure _ source₁

theorem drawVariables_floats {values values' : Table Number} {ranges : Table (Number × Number)}
    {source' : Source} (hvalues : ∀ e ∈ values, e.2.Floats) (hs : source.Floats)
    (h : drawVariables d values ranges source = .ok values' source') :
    ∀ e ∈ values', e.2.Floats := by
  induction ranges generalizing values source with
  | nil =>
    cases h
    exact hvalues
  | cons range rest ih =>
    obtain ⟨name, low, high⟩ := range
    unfold drawVariables at h
    split at h
    · obtain ⟨x, source₁, hx, h⟩ := Task.ok_of_bind h
      have hgiven := Source.uniform_given low high source
      rw [Task.Moves, Task.outcome_ok hx] at hgiven
      obtain ⟨y, rfl⟩ := Source.uniform_float hs hx
      exact ih (Table.forall_put (P := Number.Floats) hvalues name ⟨y, rfl⟩) (hgiven.floats hs) h
    · exact ih hvalues hs h

theorem fresh_typed (now : Float) {vars : Table Number} (entities : Table (Table Json))
    (h : ∀ e ∈ vars, e.2.Floats) : (fresh now vars entities).Typed where
  vars := h
  score := by simp [fresh]
  players := by simp [fresh]
  events := by simp [fresh]
  logs := by simp [fresh]
  winner := rfl

theorem initial_typed (hd : d.Valued) {now : Float} {s : State} {source' : Source}
    (hs : source.Floats) (h : initial d now source = .ok s source') : s.Typed := by
  have hvalues : ∀ e ∈ d.vars.mapValues Variable.value, e.2.Floats := by
    simp only [Table.mapValues, List.forall_mem_map]
    exact fun e he => (hd.vars e he).value.floats
  obtain ⟨values, entities, rfl, ⟨-, rfl⟩ | ⟨start, -, hdraw⟩⟩ := initial_ok h
  · exact fresh_typed now _ hvalues
  · exact fresh_typed now _ (drawVariables_floats hvalues hs hdraw)

end State
end Gameroom
