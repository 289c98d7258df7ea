import Gameroom.Proofs.Room.Requests
import Gameroom.Proofs.State.Variables

/-! Ids of players are given out once: whoever left does not come back. -/

namespace Gameroom

namespace Text

def hexValue (c : Char) : Nat := if c.toNat < 58 then c.toNat - 48 else c.toNat - 87

def hexNumber (digits : List Char) : Nat := digits.foldl (fun n c => 16 * n + hexValue c) 0

theorem hexValue_digitChar {n : Nat} (h : n < 16) : hexValue n.digitChar = n := by
  interval_cases n <;> rfl

theorem hexNumber_append (digits : List Char) (c : Char) :
    hexNumber (digits ++ [c]) = 16 * hexNumber digits + hexValue c := by
  simp [hexNumber]

theorem hexNumber_toDigits (n : Nat) : hexNumber (Nat.toDigits 16 n) = n := by
  induction n using Nat.strongRecOn with
  | ind n ih =>
    rcases lt_or_ge n 16 with h | h
    · rw [Nat.toDigits_of_lt_base h]
      simpa [hexNumber] using hexValue_digitChar h
    · rw [Nat.toDigits_of_base_le (by decide) h, hexNumber_append, ih _ (by omega),
        hexValue_digitChar (Nat.mod_lt _ (by decide))]
      omega

theorem hexNumber_hex (width n : Nat) : hexNumber (hex width n) = n := by
  have hzeros (k : Nat) : (List.replicate k '0').foldl (fun n c => 16 * n + hexValue c) 0 = 0 := by
    induction k with
    | zero => rfl
    | succ k ih => exact ih
  unfold hex hexNumber
  rw [List.foldl_append, hzeros]
  exact hexNumber_toDigits n

end Text

theorem playerId_injective : Function.Injective playerId := by
  intro n m h
  have hdigits : Text.hex 12 n = Text.hex 12 m := by
    simpa [playerId, idDigits] using congrArg String.toList h
  rw [← Text.hexNumber_hex 12 n, hdigits, Text.hexNumber_hex]

namespace Player

def Keyed (t : Table Player) : Prop := ∀ id p, t.get? id = some p → p.id = id

theorem Keyed.put {t : Table Player} (h : Keyed t) (p : Player) : Keyed (t.put p.id p) := by
  intro id q hq
  rw [Table.get?_put] at hq
  split_ifs at hq with hid
  · cases hq
    exact hid
  · exact h id q hq

theorem Keyed.drop {t : Table Player} (h : Keyed t) (id : String) : Keyed (t.drop id) := by
  intro other q hq
  rw [Table.get?_drop] at hq
  split_ifs at hq
  exact h other q hq

/-- The same players are there, each under the own id. -/
structure Same (t t' : Table Player) : Prop where
  keyed : Keyed t'
  has : ∀ id, t'.has id ↔ t.has id

theorem Same.refl {t : Table Player} (h : Keyed t) : Same t t := ⟨h, fun _ => .rfl⟩

theorem Same.trans {t t' t'' : Table Player} (h : Same t t') (h' : Same t' t'') : Same t t'' :=
  ⟨h'.keyed, fun id => (h'.has id).trans (h.has id)⟩

theorem same_put {t : Table Player} (h : Keyed t) {id : String} {p : Player}
    (hp : t.get? id = some p) (p' : Player) (hid : p'.id = p.id) : Same t (t.put p'.id p') := by
  refine ⟨h.put p', fun other => ?_⟩
  rw [Table.has_put, hid, h id p hp]
  constructor
  · rintro (rfl | hother)
    · rw [Table.has, hp]
      rfl
    · exact hother
  · exact .inr

end Player

namespace State
variable {d : Definition}

theorem Step.same {k : Kind} {s s' : State} (h : Step d k s s') (hk : k.isPlay)
    (hs : Player.Keyed s.players) : Player.Same s.players s'.players := by
  cases h with
  | write h =>
    unfold setVariable at h
    split at h
    · cases h
    · obtain ⟨n, -, h⟩ := ok_of_bind h
      cases h
      exact .refl hs
  | join | leave => exact hk.elim
  | update h hid => exact Player.same_put hs h _ hid
  | score id score =>
    unfold updateScore
    dsimp only
    split
    · rename_i p hp
      obtain rfl := hs id p hp
      exact Player.same_put hs hp { p with score } rfl
    · exact .refl hs
  | event h =>
    obtain ⟨timestamp, -, h⟩ := ok_of_bind h
    cases h
    exact .refl hs
  | _ => exact .refl hs

theorem Plays.same {s s' : State} (h : Plays d s s') (hs : Player.Keyed s.players) :
    Player.Same s.players s'.players :=
  h.keeps (P := fun s' => Player.Same s.players s'.players)
    (fun _ _ _ hk step ih => ih.trans (step.same hk ih.keyed)) (.refl hs)

end State

namespace Room

def Issued (r : Room) (id : String) : Prop := ∃ n ≤ r.ids, id = playerId n

/-- Players stand under their own ids, which were given out. -/
structure Roster (r : Room) : Prop where
  keyed : Player.Keyed r.state.players
  issued : ∀ id, r.state.players.has id → r.Issued id

theorem Step.ids_le {k : Kind} {r r' : Room} (h : Step k r r') : r.ids ≤ r'.ids := by
  cases h with
  | act => exact process_ids.ge
  | join => exact Nat.le_succ _
  | aside h => exact h.ids
  | _ => exact le_rfl

theorem Issued.step {k : Kind} {r r' : Room} {id : String} (hid : r.Issued id) (h : Step k r r') :
    r'.Issued id := by
  obtain ⟨n, hn, rfl⟩ := hid
  exact ⟨n, hn.trans h.ids_le, rfl⟩

theorem initial_fresh {d : Definition} {now : Float} {source source' : Source} {s : State}
    (h : State.initial d now source = .ok s source') :
    ∃ vars entities, s = .fresh now vars entities := by
  obtain ⟨values, entities, hfresh, -⟩ := State.initial_ok h
  exact ⟨values, entities, hfresh⟩

theorem fresh_of_initial {d : Definition} {now : Float} {source source' : Source} {s : State}
    (h : State.initial d now source = .ok s source') : s.players = [] := by
  obtain ⟨vars, entities, rfl⟩ := initial_fresh h
  rfl

theorem roster_of_empty {r : Room} (h : r.state.players = []) : r.Roster := by
  constructor
  · intro id p hp
    rw [h] at hp
    cases hp
  · intro id hid
    rw [h] at hid
    cases hid

/-- What a step does to the players: it keeps the roster, and nobody with an id that was given out
comes. -/
theorem Step.roster {k : Kind} {r r' : Room} (h : Step k r r') (hr : r.Roster) :
    r'.Roster ∧ ∀ id, r.Issued id → r'.state.players.has id → r.state.players.has id := by
  have hissued (id : String) (hid : r.Issued id) : r'.Issued id := hid.step h
  have hsame (hs : Player.Same r.state.players r'.state.players) : r'.Roster ∧
      ∀ id, r.Issued id → r'.state.players.has id → r.state.players.has id :=
    ⟨⟨hs.keyed, fun id hid => hissued id (hr.issued id ((hs.has id).1 hid))⟩,
      fun id _ hid => (hs.has id).1 hid⟩
  have hdrop (id : String) (hs : r'.state.players = r.state.players.drop id) : r'.Roster ∧
      ∀ id, r.Issued id → r'.state.players.has id → r.state.players.has id := by
    have hsub (other : String) (hother : r'.state.players.has other) :
        r.state.players.has other := by
      rw [hs, Table.has, Table.get?_drop] at hother
      split_ifs at hother
      · cases hother
      · exact hother
    exact ⟨⟨hs ▸ hr.keyed.drop id,
        fun other hother => hissued other (hr.issued other (hsub other hother))⟩,
      fun other _ hother => hsub other hother⟩
  have hnone (hs : r'.state.players = []) : r'.Roster ∧
      ∀ id, r.Issued id → r'.state.players.has id → r.state.players.has id := by
    refine ⟨roster_of_empty hs, fun id _ hid => ?_⟩
    rw [hs] at hid
    cases hid
  cases h with
  | store h hk => exact hsame (h.same hk hr.keyed)
  | act => exact hsame (State.Plays.same process_plays hr.keyed)
  | @join p _ hp =>
    refine ⟨⟨hr.keyed.put p, fun id hid => ?_⟩, ?_⟩
    · rcases (Table.has_put _ _ _ _).1 hid with rfl | hid
      · exact ⟨r.ids + 1, le_rfl, hp⟩
      · exact hissued id (hr.issued id hid)
    · rintro id ⟨n, hn, rfl⟩ hid
      -- The newcomer has an id that was never given out before.
      refine ((Table.has_put _ _ _ _).1 hid).resolve_left fun hsame => ?_
      have := playerId_injective (hp.symm.trans hsame)
      omega
  | drop id | leave id => exact hdrop id rfl
  | renew h | reset h => exact hnone (fresh_of_initial h)
  | byHand | clear => exact hsame (.refl hr.keyed)
  | aside h =>
    refine hsame ?_
    rw [h.state]
    exact .refl hr.keyed

theorem roster_create {d : Definition} {o : Options} {r : Room} (h : create d o = .ok r) :
    r.Roster := by
  obtain ⟨-, source, hs⟩ := create_ok h
  exact roster_of_empty (fresh_of_initial hs)

/-! ### Rooms in play -/

theorem Roster.leads {ok : Kind → Prop} {r r' : Room} (hr : r.Roster) (h : Leads Step ok r r') :
    r'.Roster := h.keeps (fun _ _ _ _ step hr => (step.roster hr).1) hr

theorem Roster.perform {r : Room} (hr : r.Roster) (q : Request) :
    ((perform q).outcome r).2.Roster := by
  cases hclock : q.setsClock with
  | true =>
    obtain ⟨clock, h⟩ := perform_clock q r hclock
    rw [h]
    exact ⟨hr.keyed, hr.issued⟩
  | false => exact hr.leads (perform_moves q r hclock)

theorem Roster.run {r : Room} (hr : r.Roster) (qs : List Request) : (run qs r).2.Roster := by
  induction qs generalizing r with
  | nil => exact hr
  | cons q qs ih => exact ih (hr.perform q)

/-- A room that was made for a definition and asked for something. It may be in the middle of a
request, as it is when a listener is told of a tick. -/
def InPlay (d : Definition) (r : Room) : Prop :=
  ∃ o r₀ qs, create d o = .ok r₀ ∧ Goes (Room.run qs r₀).2 r

theorem InPlay.roster {d : Definition} {r : Room} (h : InPlay d r) : r.Roster := by
  obtain ⟨o, r₀, qs, hcreate, hgoes⟩ := h
  exact ((roster_create hcreate).run qs).leads hgoes

end Room
end Gameroom
