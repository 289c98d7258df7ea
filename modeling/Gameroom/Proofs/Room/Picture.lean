import Gameroom.Proofs.Room.Growth
import Gameroom.Proofs.Room.Record
import Gameroom.Proofs.State.Typed

/-!
When the picture of a room can be taken. On the course of a game everything keeps the type that it
has in the picture, except for the actions that players ask for: these are kept as they were named.
-/

namespace Gameroom

/-! ### What fits -/

namespace Fit
variable {α β : Type} {a : Fit α} {b : Fit β}

def Fits (a : Fit α) : Prop := ∃ x, a = .ok x

theorem fits_ok (x : α) : Fits (.ok x) := ⟨x, rfl⟩

theorem fits_map (f : α → β) : Fits (f <$> a) ↔ Fits a := by
  cases a with
  | error es => exact ⟨nofun, nofun⟩
  | ok x => exact ⟨fun _ => fits_ok x, fun _ => fits_ok (f x)⟩

theorem fits_bind {f : α → Fit β} {P : Prop} (h : ∀ x, Fits (f x) ↔ P) :
    Fits (a >>= f) ↔ Fits a ∧ P := by
  cases a with
  | error es => exact ⟨nofun, nofun⟩
  | ok x => exact ⟨fun hf => ⟨fits_ok x, (h x).1 hf⟩, fun hf => (h x).2 hf.2⟩

theorem fits_last {f : α → Fit β} (h : ∀ x, Fits (f x)) : Fits (a >>= f) ↔ Fits a := by
  rw [fits_bind (P := True) fun x => iff_true_intro (h x), and_true]

theorem fits_both : Fits (both a b) ↔ Fits a ∧ Fits b := by
  cases a <;> cases b <;> simp [Fits, both]

theorem fits_text (path : List Place) (value : Json) :
    Fits (text path value) ↔ value.IsText := by
  cases value <;> simp [Fits, text, misfit, Json.IsText]

theorem fits_float {path : List Place} {value : Json} (h : value.IsScore) :
    Fits (float path value) := by
  obtain ⟨n, rfl, x, hx⟩ := h
  exact ⟨x, by simp only [float, hx]⟩

variable {read : List Place → Json → Fit α} {P : Json → Prop}

theorem fits_items (h : ∀ path value, Fits (read path value) ↔ P value) {path : List Place}
    {values : List Json} : Fits (items read path values) ↔ ∀ value ∈ values, P value := by
  unfold items
  generalize 0 = place
  induction values generalizing place with
  | nil => simp [itemsFrom, fits_ok]
  | cons value rest ih => rw [itemsFrom, fits_map, fits_both, h, ih, List.forall_mem_cons]

theorem fits_texts {path : List Place} {values : List Json} :
    Fits (items text path values) ↔ ∀ value ∈ values, value.IsText :=
  fits_items fits_text

theorem fits_values (h : ∀ path value, P value → Fits (read path value)) {path : List Place}
    {fields : Table Json} (hfields : ∀ e ∈ fields, P e.2) : Fits (values read path fields) := by
  induction fields with
  | nil => exact fits_ok []
  | cons field rest ih =>
    obtain ⟨hfield, hrest⟩ := List.forall_mem_cons.1 hfields
    exact (fits_map _).2 (fits_both.2 ⟨h _ _ hfield, ih hrest⟩)

end Fit

open Fit

theorem PlayerInfo.fits_ofPlayer {p : Player} (hscore : p.score.IsScore) :
    Fits (ofPlayer p) ↔ ∀ action ∈ p.actions.toList, action.IsText := by
  refine (fits_last fun _ => fits_ok _).trans ?_
  rw [fits_both, and_iff_right (fits_float hscore), fits_texts]

namespace Snapshot

theorem fits_playersOf {players : Table Player} (h : ∀ e ∈ players, e.2.score.IsScore) :
    Fits (playersOf players) ↔ ∀ e ∈ players, ∀ action ∈ e.2.actions.toList, action.IsText := by
  induction players with
  | nil => simp [playersOf, fits_ok]
  | cons entry rest ih =>
    obtain ⟨id, p⟩ := entry
    obtain ⟨hp, hrest⟩ := List.forall_mem_cons.1 h
    refine (fits_bind fun _ => fits_last fun _ => fits_ok _).trans ?_
    rw [PlayerInfo.fits_ofPlayer hp, ih hrest, List.forall_mem_cons]

theorem fits_eventsOf {events : List Event}
    (h : ∀ e ∈ events, e.type.IsText ∧ e.message.IsText) : Fits (eventsOf events) := by
  induction events with
  | nil => exact fits_ok []
  | cons e rest ih =>
    obtain ⟨⟨htype, hmessage⟩, hrest⟩ := List.forall_mem_cons.1 h
    have hevent : Fits (EventInfo.ofEvent e) := (fits_last fun _ => fits_ok _).2
      (fits_both.2 ⟨(fits_text _ _).2 htype, (fits_text _ _).2 hmessage⟩)
    exact (fits_bind fun _ => fits_last fun _ => fits_ok _).2 ⟨hevent, ih hrest⟩

theorem fits_ofState (room : String) {s : State} (hs : s.Typed) :
    Fits (ofState room s) ↔ ∀ e ∈ s.players, ∀ action ∈ e.2.actions.toList, action.IsText := by
  have hvars : ∀ e ∈ s.vars.mapValues Json.number, e.2.IsScore := by
    simp only [Table.mapValues, List.forall_mem_map]
    exact fun e he => ⟨e.2, rfl, hs.vars e he⟩
  have hwinner : Fits (text? [.field "winner"] s.winner) := by
    rw [hs.winner]
    exact fits_ok none
  have hrest : Fits (both (values float [.field "variables"] (s.vars.mapValues .number))
      (both (values float [.field "score"] s.score)
        (both (items text [.field "logs"] s.logs.toList) (text? [.field "winner"] s.winner)))) := by
    simp only [fits_both]
    exact ⟨fits_values (fun _ _ => fits_float) hvars, fits_values (fun _ _ => fits_float) hs.score,
      fits_texts.2 hs.logs, hwinner⟩
  refine (fits_bind fun _ => fits_bind fun _ => fits_last fun _ => fits_ok _).trans ?_
  rw [fits_playersOf hs.players, and_iff_left ⟨fits_eventsOf hs.events, hrest⟩]

end Snapshot

namespace Room

/-! ### Rooms with types -/

/-- A room of a definition whose state has its types, with float samples. -/
structure Typed (d : Definition) (r : Room) : Prop where
  definition : r.definition = d
  source : r.source.Floats
  state : r.state.Typed

variable {d : Definition} {o : Options} {r r' : Room}

theorem Typed.played (hd : d.Parsed) (h : r.Typed d) {es : List Execution}
    (hplayed : Played es r r') : r'.Typed d :=
  ⟨hplayed.definition.trans h.definition, Source.SameGiven.floats hplayed.source h.source,
    State.Course.typed hd (h.definition ▸ hplayed.course) h.state⟩

/-- A room with the types of another. -/
abbrev KeepsTypes (d : Definition) (r r' : Room) : Prop := r.Typed d → r'.Typed d

instance : IsPreorder Room (KeepsTypes d) where
  refl _ h := h
  trans _ _ _ h h' hr := h' (h hr)

theorem renew_typed (hd : d.Parsed) (h : r.Typed d) : (renew.outcome r).2.Typed d := by
  obtain ⟨rfl, hsource, hstate⟩ := h
  have hgiven := State.initial_given (d := r.definition) r.clock r.source
  cases hs : State.initial r.definition r.clock r.source with
  | error fault source =>
    rw [Task.Moves, Task.outcome_error hs] at hgiven
    rw [Task.outcome_error (renew_error hs)]
    exact ⟨rfl, hgiven.floats hsource, hstate⟩
  | ok s source =>
    rw [Task.Moves, Task.outcome_ok hs] at hgiven
    rw [Task.outcome_ok (renew_ok hs)]
    exact ⟨rfl, hgiven.floats hsource, State.initial_typed hd.valued hsource hs⟩

theorem reset_typed (hd : d.Parsed) (h : r.Typed d) : (reset.outcome r).2.Typed d := by
  have hrenewed := renew_typed hd (h.played hd (stop_played r))
  cases hs : renew r.stop with
  | error fault r' =>
    rw [Task.outcome_error hs] at hrenewed
    rw [Task.outcome_error (reset_error hs)]
    exact hrenewed
  | ok _ r' =>
    rw [Task.outcome_ok hs] at hrenewed
    rw [Task.outcome_ok (reset_ok hs)]
    exact ⟨hrenewed.definition, hrenewed.source, hrenewed.state⟩

theorem join_typed (data : Json) (r : Room) :
    (perform (.addPlayer data)).Moves (KeepsTypes d) r := by
  rw [Task.Moves]
  rcases join_cases data r with ⟨fault, ids, hend⟩ | ⟨p, hscore, -, hend⟩
  · rw [hend]
    exact fun h => ⟨h.definition, h.source, h.state⟩
  · rw [hend]
    exact fun h => ⟨h.definition, h.source, h.state.vars, h.state.score,
      Table.forall_put (P := fun p : Player => p.score.IsScore) h.state.players p.id
        (Json.isScore_of_ok hscore), h.state.events, h.state.logs, h.state.winner⟩

theorem removePlayer_typed (id : Json) (r : Room) :
    (removePlayer id).Moves (KeepsTypes d) r := by
  have hremove : (change (State.removePlayer id)).Moves (KeepsTypes d) r :=
    Task.moves_modifyGet fun h =>
      ⟨h.definition, h.source, State.removePlayer_typed id r.state h.state⟩
  refine hremove.bind fun removed r₁ _ => ?_
  split
  · exact Task.Moves.bind (Task.moves_modify fun h => ⟨h.definition, h.source, h.state⟩)
      fun _ r₂ _ => Task.moves_pure _ r₂
  · exact Task.moves_pure _ r₁

/-- Whether a request is on the course of a game, or players come and go on it, it starts the game
over, or it has to do with clocks, listeners and the picture. -/
def Request.isPlayed (q : Request) : Bool :=
  q.isCourse || match q with
    | .addPlayer _ | .removePlayer _ | .reset | .advanceClock _ | .setClock _ | .setHost _
    | .onTick .. | .onError .. | .removeTick _ | .removeError _ | .seen | .snapshot => true
    | _ => false

theorem Idle.typed (h : Idle r r') : KeepsTypes d r r' := fun htyped =>
  ⟨h.aside.definition.trans htyped.definition, h.source ▸ htyped.source,
    h.aside.state ▸ htyped.state⟩

theorem perform_typed (hd : d.Parsed) {q : Request} (hq : q.isPlayed) (r : Room) :
    (perform q).Moves (KeepsTypes d) r := by
  cases q.aim with
  | looks hidle | setsUp hidle => exact (perform_idle hidle r).typed
  | course hcourse => exact fun h => h.played hd (perform_played hcourse r)
  | clock hclock =>
    obtain ⟨clock, h⟩ := perform_clock q r hclock
    rw [Task.Moves, h]
    exact fun h => ⟨h.definition, h.source, h.state⟩
  | join data => exact join_typed data r
  | leave id => exact answered (removePlayer_typed id r)
  | reset => exact Task.Moves.bind (reset_typed hd) fun _ r₁ _ => Task.moves_pure _ r₁
  | edits h | cooldowns h => cases q <;> first | (cases hq; done) | cases h
  | drop | renew | destroy | close | count | clearHistory | clearRecent => cases hq

theorem run_typed (hd : d.Parsed) {qs : List Request} (hqs : ∀ q ∈ qs, q.isPlayed)
    (h : r.Typed d) : (run qs r).2.Typed d := by
  induction qs generalizing r with
  | nil => exact h
  | cons q qs ih =>
    exact ih (fun q hq => hqs q (List.mem_cons_of_mem _ hq))
      (perform_typed hd (hqs q List.mem_cons_self) r h)

/-- The samples of a room are floats, as those of every generator are. -/
def Options.DrawsFloats (o : Options) (d : Definition) : Prop := (o.sourceFor d).Floats

theorem create_typed (hd : d.Parsed) (ho : o.DrawsFloats d) (h : create d o = .ok r) :
    r.Typed d := by
  obtain ⟨s, source, timestep, hs, -, rfl⟩ := made_of_create h
  have hgiven := State.initial_given (d := d) o.clock (o.sourceFor d)
  rw [Task.Moves, Task.outcome_ok hs] at hgiven
  exact ⟨rfl, hgiven.floats ho, State.initial_typed hd.valued ho hs⟩

theorem pictured_iff_fits (r : Room) :
    (∃ picture, ((perform .snapshot).outcome r).1 = .ok (.snapshot picture)) ↔
      Fits r.snapshot := by
  have hlook : ((perform .snapshot).outcome r).1 = Answer.snapshot <$> r.snapshot.orFault := by
    unfold Task.outcome
    cases h : r.snapshot.orFault <;> simp only [perform, bind, EStateM.bind, Task.look, h] <;> rfl
  rw [hlook]
  cases r.snapshot with
  | error misfits =>
    constructor
    · rintro ⟨picture, h⟩
      cases h
    · rintro ⟨picture, h⟩
      cases h
  | ok picture => exact ⟨fun _ => fits_ok picture, fun _ => ⟨picture, rfl⟩⟩

/-- Whatever is played in a room: its picture can be taken unless a player is there who has asked
for an action by something else than a name. -/
theorem pictured_iff (hd : d.Parsed) (ho : o.DrawsFloats d) (h : create d o = .ok r)
    {qs : List Request} (hqs : ∀ q ∈ qs, q.isPlayed) :
    (∃ picture, ((perform .snapshot).outcome (run qs r).2).1 = .ok (.snapshot picture)) ↔
      ∀ e ∈ (run qs r).2.state.players, ∀ action ∈ e.2.actions.toList, action.IsText := by
  have htyped := run_typed hd hqs (create_typed hd ho h)
  rw [pictured_iff_fits]
  exact Snapshot.fits_ofState _ htyped.state

def waving : List Request :=
  [.addPlayer (.object []), .act (.text "wave") (.text (playerId 1)) .null, .start, .forceTick]

theorem pictured_waving :
    ∃ d r, d.Parsed ∧ create d .still = .ok r ∧
      ∃ picture, ((perform .snapshot).outcome (run waving r).2).1 = .ok (.snapshot picture) := by
  obtain ⟨d, hd⟩ : ∃ d, Definition.ofFields uneventful = .ok d := ⟨_, rfl⟩
  obtain ⟨r, hr⟩ : ∃ r, create d .still = .ok r := by
    cases hd
    exact ⟨_, rfl⟩
  have hdraws : Options.still.DrawsFloats d := by
    rintro samples ⟨rfl⟩ x hx
    cases hx
  refine ⟨d, r, ⟨uneventful, hd⟩, hr,
    (pictured_iff ⟨uneventful, hd⟩ hdraws hr (show ∀ q ∈ waving, q.isPlayed by decide)).2 ?_⟩
  cases hd
  cases hr
  decide +kernel

def numbered : List Request :=
  [.addPlayer (.object []), .act (.int 5) (.text (playerId 1)) .null]

/-- The action is refused, and from then on the room has no picture. -/
theorem unpictured_numbered :
    ∃ d r, d.Parsed ∧ create d .still = .ok r ∧ (∀ q ∈ numbered, q.isPlayed) ∧
      ((perform .snapshot).outcome (run numbered r).2).1 =
        .error (.misfit [⟨[.field "actions", .item 0], .notText⟩]) := by
  obtain ⟨d, hd⟩ : ∃ d, Definition.ofFields uneventful = .ok d := ⟨_, rfl⟩
  obtain ⟨r, hr⟩ : ∃ r, create d .still = .ok r := by
    cases hd
    exact ⟨_, rfl⟩
  refine ⟨d, r, ⟨uneventful, hd⟩, hr, by decide, ?_⟩
  cases hd
  cases hr
  rfl

end Room
end Gameroom
