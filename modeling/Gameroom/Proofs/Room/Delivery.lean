import Gameroom.Proofs.Room.Anew
import Gameroom.Proofs.Room.Beats

/-!
What listeners are told. A tick that comes to its end calls every listener for ticks once, a tick
that a fault ends calls none, and every fault and every refusal is told to each listener for errors
once. Between the ticks nobody is called.
-/

namespace Gameroom

/-- What a listener writes into the picture that it shares with later ones. -/
def Reaction.writes : Reaction → Table Json
  | .overwrite name value =>
    match name.name with
    | .ok name => [(name, value)]
    | .error _ => []
  | _ => []

/-- Whether a listener drives the room that it listens to. -/
def Reaction.drives : Reaction → Bool
  | .stopAt _ | .act .. => true
  | _ => false

/-- The news as they are told after some listeners, with what those wrote into the picture. -/
def News.after (news : News) (ls : List (Registered Reaction)) : News :=
  { news with shown := news.shown.putAll (ls.flatMap (·.listener.writes)) }

def ErrorNote.call (n : ErrorNote) : String × Fault := (n.key, n.fault)

theorem Table.putAll_append {α : Type} (t u v : Table α) :
    t.putAll (u ++ v) = (t.putAll u).putAll v := by
  induction u generalizing t with
  | nil => rfl
  | cons entry rest ih => exact ih _

theorem News.after_cons (news : News) (l : Registered Reaction) (ls : List (Registered Reaction)) :
    news.after (l :: ls) = (news.after [l]).after ls := by
  simp [after, Table.putAll_append]

namespace Room
variable {r r' r'' : Room}

/-- Those who listen are the same. -/
structure SameListeners (r r' : Room) : Prop where
  ticks : r'.loop.tickListeners = r.loop.tickListeners
  errors : r'.loop.errorListeners.map (·.key) = r.loop.errorListeners.map (·.key)

instance : IsPreorder Room SameListeners where
  refl _ := ⟨rfl, rfl⟩
  trans _ _ _ h h' := ⟨h'.ticks.trans h.ticks, h'.errors.trans h.errors⟩

/-- Each of some faults is told to every listener for errors. -/
def tellings (r : Room) (faults : List Fault) : List (String × Fault) :=
  faults.flatMap fun fault => r.loop.errorListeners.map fun l => (l.key, fault)

theorem SameListeners.tellings (h : SameListeners r r') (faults : List Fault) :
    r'.tellings faults = r.tellings faults := by
  have hkeys (r : Room) (fault : Fault) : (r.loop.errorListeners.map fun l => (l.key, fault)) =
      (r.loop.errorListeners.map (·.key)).map (·, fault) := by simp
  simp only [Room.tellings, hkeys, h.errors]

/-- Listeners for ticks are called, and faults are told to all listeners for errors. -/
structure Hears (notes : List TickNote) (faults : List Fault) (r r' : Room) : Prop where
  same : SameListeners r r'
  ticks : r'.tickNotes.toList = r.tickNotes.toList ++ notes
  errors : ∃ calls : List ErrorNote,
    r'.errorNotes.toList = r.errorNotes.toList ++ calls ∧
      calls.map ErrorNote.call = r.tellings faults
  executed : r'.loop.ticksExecuted = r.loop.ticksExecuted

/-- Nobody is called. -/
abbrev Unheard : Room → Room → Prop := Hears [] []

theorem Hears.trans {ns ns' : List TickNote} {fs fs' : List Fault} (h : Hears ns fs r r')
    (h' : Hears ns' fs' r' r'') : Hears (ns ++ ns') (fs ++ fs') r r'' := by
  obtain ⟨calls, hcalls, htold⟩ := h.errors
  obtain ⟨calls', hcalls', htold'⟩ := h'.errors
  refine ⟨trans_of SameListeners h.same h'.same, ?_, ⟨calls ++ calls', ?_, ?_⟩,
    h'.executed.trans h.executed⟩
  · rw [h'.ticks, h.ticks, List.append_assoc]
  · rw [hcalls', hcalls, List.append_assoc]
  · rw [List.map_append, htold, htold', h.same.tellings, tellings, tellings, tellings,
      List.flatMap_append]

theorem unheard (hloop : r'.loop.tickListeners = r.loop.tickListeners ∧
      r'.loop.errorListeners = r.loop.errorListeners ∧
      r'.loop.ticksExecuted = r.loop.ticksExecuted)
    (hticks : r'.tickNotes = r.tickNotes) (herrors : r'.errorNotes = r.errorNotes) :
    Unheard r r' :=
  ⟨⟨hloop.1, by rw [hloop.2.1]⟩, by rw [hticks, List.append_nil],
    ⟨[], by rw [herrors, List.append_nil], rfl⟩, hloop.2.2⟩

instance : IsPreorder Room Unheard where
  refl _ := unheard ⟨rfl, rfl, rfl⟩ rfl rfl
  trans _ _ _ h h' := h.trans h'

/-! ### Calls of listeners -/

theorem tellError_hears (fault : Fault) (r : Room) : Hears [] [fault] r (r.tellError fault) := by
  refine ⟨⟨rfl, ?_⟩, (List.append_nil _).symm, ⟨_, Array.toList_appendList, ?_⟩, rfl⟩
  · simp [tellError]
  · simp [tellings, ErrorNote.call]

theorem called_hears (note : TickNote) (r : Room) :
    Hears [note] [] r { r with tickNotes := r.tickNotes.push note } :=
  ⟨⟨rfl, rfl⟩, Array.toList_push, ⟨[], (List.append_nil _).symm, rfl⟩, rfl⟩

theorem refusal_hears (key : String) (news : News) (fault : Fault) (r : Room) :
    Hears [⟨key, news, news.shown, some fault⟩] [fault] r (r.refusal key news fault) :=
  (called_hears _ r).trans (tellError_hears fault _)

theorem stop_unheard (r : Room) : Unheard r r.stop := by
  unfold stop halt
  split_ifs <;> exact unheard ⟨rfl, rfl, rfl⟩ rfl rfl

theorem process_unheard (action player parameters : Json) (r : Room) :
    Unheard r (process action player parameters r).2 := unheard ⟨rfl, rfl, rfl⟩ rfl rfl

/-- What a listener is called with, and what comes of it. -/
structure Call (news : News) (l : Registered Reaction) (n : TickNote) : Prop where
  key : n.key = l.key
  given : n.news = news
  refusal : ∀ refused, l.listener = .refuseSome refused →
    n.refusal = if refused news.tick then some (.listener l.key) else none

theorem react_hears (l : Registered Reaction) (news : News) (r : Room) :
    (react l news r).1 = news.after [l] ∧
      ∃ n, Call news l n ∧ Hears [n] n.refusal.toList r (react l news r).2 := by
  obtain ⟨key, current, listener⟩ := l
  cases listener with
  | record =>
    exact ⟨rfl, _, ⟨rfl, rfl, by rintro _ ⟨⟩⟩, called_hears ⟨key, news, news.shown, none⟩ r⟩
  | refuseSome refused =>
    refine ⟨rfl, ?_⟩
    cases hrefused : refused news.tick with
    | true =>
      refine ⟨⟨key, news, news.shown, some (.listener key)⟩, ⟨rfl, rfl, ?_⟩, ?_⟩
      · rintro _ ⟨⟩
        rw [if_pos hrefused]
      · simp only [react, hrefused]
        exact refusal_hears key news _ r
    | false =>
      refine ⟨⟨key, news, news.shown, none⟩, ⟨rfl, rfl, ?_⟩, ?_⟩
      · rintro _ ⟨⟩
        rw [if_neg (by simp [hrefused])]
      · simp only [react, hrefused]
        exact called_hears ⟨key, news, news.shown, none⟩ r
  | stopAt tick =>
    simp only [react]
    cases (Json.int news.tick).reaches tick with
    | error fault => exact ⟨rfl, _, ⟨rfl, rfl, by rintro _ ⟨⟩⟩, refusal_hears key news fault r⟩
    | ok due =>
      cases due with
      | false =>
        exact ⟨rfl, _, ⟨rfl, rfl, by rintro _ ⟨⟩⟩, called_hears ⟨key, news, news.shown, none⟩ r⟩
      | true =>
        exact ⟨rfl, _, ⟨rfl, rfl, by rintro _ ⟨⟩⟩,
          (stop_unheard r).trans (called_hears ⟨key, news, news.shown, none⟩ r.stop)⟩
  | overwrite name value =>
    simp only [react]
    cases hname : name.name with
    | error fault =>
      refine ⟨?_, _, ⟨rfl, rfl, by rintro _ ⟨⟩⟩, refusal_hears key news fault r⟩
      simp [News.after, Reaction.writes, hname, Table.putAll]
    | ok name =>
      refine ⟨?_, _, ⟨rfl, rfl, by rintro _ ⟨⟩⟩,
        called_hears ⟨key, news, news.shown.put name value, none⟩ r⟩
      simp [News.after, Reaction.writes, hname, Table.putAll]
  -- What the action does is not heard: it leaves listeners and notes as they are.
  | act action player =>
    simp only [react]
    cases hclosed : r.closed with
    | true =>
      simp only [submit_closed hclosed]
      exact ⟨rfl, _, ⟨rfl, rfl, by rintro _ ⟨⟩⟩, refusal_hears key news _ r⟩
    | false =>
      simp only [submit_open hclosed]
      exact ⟨rfl, _, ⟨rfl, rfl, by rintro _ ⟨⟩⟩,
        (process_unheard action player .null r).trans
          (called_hears ⟨key, news, news.shown, none⟩ _)⟩

/-- Every listener is called once, in order: with the news, and with what the listeners before it
wrote into the picture. -/
structure Calls (news : News) (ls : List (Registered Reaction)) (notes : List TickNote) : Prop where
  length : notes.length = ls.length
  call : ∀ i n l, notes[i]? = some n → ls[i]? = some l → Call (news.after (ls.take i)) l n

theorem Calls.cons {news : News} {l : Registered Reaction} {ls : List (Registered Reaction)}
    {n : TickNote} {notes : List TickNote} (hcall : Call news l n)
    (h : Calls (news.after [l]) ls notes) : Calls news (l :: ls) (n :: notes) := by
  refine ⟨by simp [h.length], fun i n' l' hn hl => ?_⟩
  cases i with
  | zero =>
    cases hn
    cases hl
    exact hcall
  | succ i =>
    rw [List.take_succ_cons, News.after_cons]
    exact h.call i n' l' hn hl

theorem tellTick_hears (ls : List (Registered Reaction)) (news : News) (r : Room) :
    ∃ notes, Calls news ls notes ∧
      Hears notes (notes.filterMap TickNote.refusal) r (tellTick news r ls) := by
  induction ls generalizing news r with
  | nil => exact ⟨[], ⟨rfl, by simp⟩, refl_of Unheard r⟩
  | cons l rest ih =>
    obtain ⟨hnews, n, hcall, hreact⟩ := react_hears l news r
    obtain ⟨notes, hcalls, hrest⟩ := ih (react l news r).1 (react l news r).2
    rw [hnews] at hcalls
    refine ⟨n :: notes, .cons hcall hcalls, ?_⟩
    have hsplit : (n :: notes).filterMap TickNote.refusal =
        n.refusal.toList ++ notes.filterMap TickNote.refusal := by
      cases hrefusal : n.refusal <;> simp [hrefusal]
    rw [hsplit]
    exact hreact.trans hrest

theorem react_state {l : Registered Reaction} (h : l.listener.drives = false) (news : News)
    (r : Room) : (react l news r).2.state = r.state := by
  obtain ⟨key, current, listener⟩ := l
  cases listener with
  | record => rfl
  | refuseSome refused =>
    simp only [react]
    split <;> rfl
  | overwrite name value =>
    simp only [react]
    split <;> rfl
  | stopAt | act => cases h

theorem tellTick_state {ls : List (Registered Reaction)} (h : ∀ l ∈ ls, l.listener.drives = false)
    (news : News) (r : Room) : (tellTick news r ls).state = r.state := by
  induction ls generalizing news r with
  | nil => rfl
  | cons l rest ih =>
    rw [List.forall_mem_cons] at h
    exact (ih h.2 _ _).trans (react_state h.1 news r)

/-! ### Ticks -/

/-- Whether the work of a tick comes to its end, or the fault that ends it. -/
def worked (r : Room) : Except Fault Unit :=
  ((Pulse.run r.definition r.clock r.gated).outcome r.pulse).1

/-- The news that a tick leaves: its number and the state at its end. -/
def newsOf (r : Room) : News :=
  ⟨r.state.tick + 1, r.pulsed.state, r.pulsed.state.vars.mapValues .number⟩

/-- The calls of listeners for ticks that a tick makes. -/
def tickCalls (r : Room) : List TickNote := r.tick.tickNotes.toList.drop r.tickNotes.size

/-- The calls of listeners for errors that a tick makes. -/
def errorCalls (r : Room) : List ErrorNote := r.tick.errorNotes.toList.drop r.errorNotes.size

/-- What is told of a tick. If its work comes to its end, every listener for ticks is called once,
and who refuses is told of to every listener for errors. If a fault ends it, nobody is called but
every listener for errors, once. -/
structure Told (r : Room) : Prop where
  ticks : r.tick.tickNotes.toList = r.tickNotes.toList ++ r.tickCalls
  errors : r.tick.errorNotes.toList = r.errorNotes.toList ++ r.errorCalls
  completed : r.worked = .ok () → Calls r.newsOf r.loop.tickListeners r.tickCalls ∧
    r.errorCalls.map ErrorNote.call = r.tellings (r.tickCalls.filterMap TickNote.refusal) ∧
    r.tick.loop.ticksExecuted = r.loop.ticksExecuted + 1
  ended : ∀ fault, r.worked = .error fault → r.tickCalls = [] ∧
    r.errorCalls.map ErrorNote.call = r.tellings [fault] ∧
    r.tick.loop.ticksExecuted = r.loop.ticksExecuted
  /-- The state of the news is that after the tick, if no listener drives the room. -/
  state : (∀ l ∈ r.loop.tickListeners, l.listener.drives = false) → r.tick.state = r.pulsed.state

theorem pulsed_number (r : Room) : r.pulsed.state.tick = r.state.tick + 1 :=
  (Pulse.run_evolves (d := r.definition) r.clock r.gated r.pulse).ages.tick

theorem afterPulse_unheard (r : Room) (p : Pulse) : Unheard r (r.afterPulse p) :=
  unheard ⟨rfl, rfl, rfl⟩ rfl rfl

theorem halt_unheard (r : Room) : Unheard r r.halt := by
  unfold halt
  split_ifs <;> exact unheard ⟨rfl, rfl, rfl⟩ rfl rfl

def counting (r : Room) : Room :=
  { r.afterPulse r.pulsed with
    loop := { r.loop with ticksExecuted := r.loop.ticksExecuted + 1 } }

theorem tick_of_error {fault : Fault} (h : r.worked = .error fault) :
    r.tick = (r.afterPulse r.pulsed).tellError fault := by
  unfold tick pulsed
  unfold worked at h
  cases hp : (Pulse.run r.definition r.clock r.gated).outcome r.pulse with
  | mk result p =>
    rw [hp] at h
    cases h
    rfl

theorem tick_of_ok (h : r.worked = .ok ()) :
    r.tick = if r.pulsed.state.status = .finished
      then (tellTick r.newsOf r.counting r.loop.tickListeners).halt
      else tellTick r.newsOf r.counting r.loop.tickListeners := by
  rw [newsOf, ← pulsed_number]
  unfold tick pulsed counting
  unfold worked at h
  unfold pulsed
  cases hp : (Pulse.run r.definition r.clock r.gated).outcome r.pulse with
  | mk result p =>
    rw [hp] at h
    cases h
    rfl

theorem tick_hears (h : r.worked = .ok ()) : ∃ notes, Calls r.newsOf r.loop.tickListeners notes ∧
    Hears notes (notes.filterMap TickNote.refusal) r.counting r.tick := by
  obtain ⟨notes, hcalls, hhears⟩ := tellTick_hears r.loop.tickListeners r.newsOf r.counting
  refine ⟨notes, hcalls, ?_⟩
  rw [tick_of_ok h]
  split_ifs
  · simpa only [List.append_nil] using hhears.trans (halt_unheard _)
  · exact hhears

theorem tickCalls_eq {notes : List TickNote}
    (h : r.tick.tickNotes.toList = r.tickNotes.toList ++ notes) : r.tickCalls = notes := by
  rw [tickCalls, h, ← Array.length_toList, List.drop_left]

theorem errorCalls_eq {calls : List ErrorNote}
    (h : r.tick.errorNotes.toList = r.errorNotes.toList ++ calls) : r.errorCalls = calls := by
  rw [errorCalls, h, ← Array.length_toList, List.drop_left]

theorem halt_state (r : Room) : r.halt.state = r.state := by
  unfold halt
  split_ifs <;> rfl

theorem tick_state (h : ∀ l ∈ r.loop.tickListeners, l.listener.drives = false) :
    r.tick.state = r.pulsed.state := by
  cases hworked : r.worked with
  | error fault =>
    rw [tick_of_error hworked]
    rfl
  | ok done =>
    rw [tick_of_ok hworked]
    have htold : (tellTick r.newsOf r.counting r.loop.tickListeners).state = r.pulsed.state :=
      tellTick_state h r.newsOf r.counting
    split_ifs
    · rw [halt_state, htold]
    · exact htold

theorem tick_told (r : Room) : Told r := by
  cases h : r.worked with
  | error fault =>
    have hhears : Hears [] [fault] r r.tick := by
      rw [tick_of_error h]
      exact (afterPulse_unheard r _).trans (tellError_hears fault _)
    obtain ⟨calls, herrors, htold⟩ := hhears.errors
    have hticks := tickCalls_eq hhears.ticks
    have herrs := errorCalls_eq herrors
    refine ⟨?_, ?_, fun h' => ?_, fun fault' h' => ⟨hticks, ?_, hhears.executed⟩, tick_state⟩
    -- Calls and faults are those of the tick, since nobody was told of anything before.
    · rw [hticks]
      exact hhears.ticks
    · rw [herrs]
      exact herrors
    · rw [h] at h'
      cases h'
    · rw [h] at h'
      cases h'
      rw [herrs]
      exact htold
  | ok done =>
    obtain ⟨notes, hcalls, hhears⟩ := tick_hears h
    obtain ⟨calls, herrors, htold⟩ := hhears.errors
    have hticks := tickCalls_eq hhears.ticks
    have herrs := errorCalls_eq herrors
    refine ⟨?_, ?_, fun _ => ⟨?_, ?_, hhears.executed⟩, fun fault h' => ?_, tick_state⟩
    · rw [hticks]
      exact hhears.ticks
    · rw [herrs]
      exact herrors
    · rwa [hticks]
    · rw [hticks, herrs]
      exact htold
    · rw [h] at h'
      cases h'

theorem tick_same (r : Room) : SameListeners r r.tick := by
  cases h : r.worked with
  | error fault =>
    rw [tick_of_error h]
    exact trans_of SameListeners (afterPulse_unheard r _).same (tellError_hears fault _).same
  | ok done =>
    obtain ⟨notes, -, hhears⟩ := tick_hears h
    exact ⟨hhears.same.ticks, hhears.same.errors⟩

end Room
end Gameroom
