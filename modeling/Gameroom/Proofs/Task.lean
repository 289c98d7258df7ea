import Mathlib
import Gameroom.Task

/-! What tasks do to their state, whether or not a fault stops them midway. -/

namespace Gameroom

/-- Steps one after the other, each with its label. -/
inductive Chain {ι σ : Type} (Step : ι → σ → σ → Prop) : List ι → σ → σ → Prop
  | nil (s : σ) : Chain Step [] s s
  | cons {i : ι} {is : List ι} {s s' s'' : σ} (step : Step i s s') (rest : Chain Step is s' s'') :
      Chain Step (i :: is) s s''

namespace Chain
variable {ι σ : Type} {Step : ι → σ → σ → Prop}

theorem single {i : ι} {s s' : σ} (h : Step i s s') : Chain Step [i] s s' := .cons h (.nil s')

theorem append {is js : List ι} {s s' s'' : σ} (h : Chain Step is s s')
    (h' : Chain Step js s' s'') : Chain Step (is ++ js) s s'' := by
  induction h with
  | nil s => exact h'
  | cons step _ ih => exact .cons step (ih h')

theorem map {τ : Type} {Step' : ι → τ → τ → Prop} (part : σ → τ)
    (hstep : ∀ i s s', Step i s s' → Step' i (part s) (part s')) {is : List ι} {s s' : σ}
    (h : Chain Step is s s') : Chain Step' is (part s) (part s') := by
  induction h with
  | nil s => exact .nil (part s)
  | cons step _ ih => exact .cons (hstep _ _ _ step) ih

theorem split {is js : List ι} {s s'' : σ} (h : Chain Step (is ++ js) s s'') :
    ∃ s', Chain Step is s s' ∧ Chain Step js s' s'' := by
  induction is generalizing s with
  | nil => exact ⟨s, .nil s, h⟩
  | cons i is ih =>
    cases h with
    | cons step rest =>
      obtain ⟨s', hleft, hright⟩ := ih rest
      exact ⟨s', .cons step hleft, hright⟩

end Chain

/-- One state leads to another by steps of some labels. -/
def Leads {ι σ : Type} (Step : ι → σ → σ → Prop) (ok : ι → Prop) (s s' : σ) : Prop :=
  ∃ is, (∀ i ∈ is, ok i) ∧ Chain Step is s s'

namespace Leads
variable {ι σ : Type} {Step : ι → σ → σ → Prop} {ok : ι → Prop}

theorem refl (s : σ) : Leads Step ok s s := ⟨[], by simp, .nil s⟩

theorem trans {s s' s'' : σ} (h : Leads Step ok s s') (h' : Leads Step ok s' s'') :
    Leads Step ok s s'' := by
  obtain ⟨is, hok, hc⟩ := h
  obtain ⟨js, hok', hc'⟩ := h'
  refine ⟨is ++ js, fun i hi => ?_, hc.append hc'⟩
  exact (List.mem_append.1 hi).elim (hok i) (hok' i)

theorem single {i : ι} {s s' : σ} (hok : ok i) (h : Step i s s') : Leads Step ok s s' :=
  ⟨[i], by simpa using hok, .single h⟩

theorem weaken {ok' : ι → Prop} {s s' : σ} (h : Leads Step ok s s') (hw : ∀ i, ok i → ok' i) :
    Leads Step ok' s s' := by
  obtain ⟨is, hok, hc⟩ := h
  exact ⟨is, fun i hi => hw i (hok i hi), hc⟩

theorem keeps {P : σ → Prop} (hstep : ∀ i s s', ok i → Step i s s' → P s → P s') {s s' : σ}
    (h : Leads Step ok s s') (hs : P s) : P s' := by
  obtain ⟨is, hok, hc⟩ := h
  induction hc with
  | nil s => exact hs
  | cons step _ ih =>
    exact ih (hstep _ _ _ (hok _ List.mem_cons_self) step hs)
      fun i hi => hok i (List.mem_cons_of_mem _ hi)

instance : IsPreorder σ (Leads Step ok) where
  refl := refl
  trans _ _ _ := trans

end Leads

/-- What holds before holds after. -/
def Keeps {σ : Type} (P : σ → Prop) (s s' : σ) : Prop := P s → P s'

instance {σ : Type} (P : σ → Prop) : IsPreorder σ (Keeps P) where
  refl _ := id
  trans _ _ _ h h' := h' ∘ h

theorem ok_of_bind {ε α β : Type} {x : Except ε α} {f : α → Except ε β} {b : β}
    (h : x >>= f = .ok b) : ∃ a, x = .ok a ∧ f a = .ok b := by
  cases x with
  | error e => cases h
  | ok a => exact ⟨a, rfl, h⟩

theorem ok_of_map {ε α β : Type} {x : Except ε α} {f : α → β} {b : β}
    (h : f <$> x = .ok b) : ∃ a, x = .ok a ∧ f a = b := by
  cases x with
  | error e => cases h
  | ok a =>
    cases h
    exact ⟨a, rfl, rfl⟩

namespace Task
variable {σ τ α β : Type} {R : σ → σ → Prop}

/-- From a state a task ends in one that it may lead to. -/
def Moves (R : σ → σ → Prop) (t : Task σ α) (s : σ) : Prop := R s (t.outcome s).2

theorem moves_pure [IsPreorder σ R] (a : α) (s : σ) : Moves R (pure a) s := refl_of R s

theorem moves_throw [IsPreorder σ R] (fault : Fault) (s : σ) :
    Moves R (throw fault : Task σ α) s := refl_of R s

theorem bind_ok {t : Task σ α} {f : α → Task σ β} {s s' : σ} {a : α} (h : t s = .ok a s') :
    (t >>= f) s = f a s' := by
  simp only [bind, EStateM.bind, h]

theorem bind_error {t : Task σ α} {f : α → Task σ β} {s s' : σ} {e : Fault}
    (h : t s = .error e s') : (t >>= f) s = .error e s' := by
  simp only [bind, EStateM.bind, h]

theorem ok_of_bind {t : Task σ α} {f : α → Task σ β} {s s'' : σ} {b : β}
    (h : (t >>= f) s = .ok b s'') : ∃ a s', t s = .ok a s' ∧ f a s' = .ok b s'' := by
  cases ht : t s with
  | error e s' =>
    rw [bind_error ht] at h
    cases h
  | ok a s' =>
    rw [bind_ok ht] at h
    exact ⟨a, s', rfl, h⟩

theorem look_ok {f : σ → Except Fault α} {s : σ} {a : α} (h : f s = .ok a) :
    look f s = .ok a s := by
  simp only [look, h]

theorem look_error {f : σ → Except Fault α} {s : σ} {e : Fault} (h : f s = .error e) :
    look f s = .error e s := by
  simp only [look, h]

theorem ok_of_look {f : σ → Except Fault α} {s s' : σ} {a : α} (h : look f s = .ok a s') :
    f s = .ok a ∧ s' = s := by
  unfold look at h
  cases hf : f s with
  | error e =>
    rw [hf] at h
    cases h
  | ok a =>
    rw [hf] at h
    cases h
    exact ⟨rfl, rfl⟩

theorem ok_of_on {part : σ → τ} {put : σ → τ → σ} {t : Task τ α} {s s' : σ} {a : α}
    (h : on part put t s = .ok a s') : ∃ p, t (part s) = .ok a p ∧ s' = put s p := by
  unfold Task.on at h
  cases ht : t (part s) with
  | error e p =>
    rw [ht] at h
    cases h
  | ok a p =>
    rw [ht] at h
    cases h
    exact ⟨p, rfl, rfl⟩

theorem outcome_ok {t : Task σ α} {s s' : σ} {a : α} (h : t s = .ok a s') :
    t.outcome s = (.ok a, s') := by
  simp only [outcome, h]

theorem outcome_error {t : Task σ α} {s s' : σ} {e : Fault} (h : t s = .error e s') :
    t.outcome s = (.error e, s') := by
  simp only [outcome, h]

theorem Moves.bind [IsPreorder σ R] {t : Task σ α} {f : α → Task σ β} {s : σ} (ht : Moves R t s)
    (hf : ∀ a s', t s = .ok a s' → Moves R (f a) s') : Moves R (t >>= f) s := by
  unfold Moves at ht ⊢
  cases h : t s with
  | error e s' =>
    rw [outcome_error (bind_error h)]
    rwa [outcome_error h] at ht
  | ok a s' =>
    rw [outcome_ok h] at ht
    have hnext : (t >>= f).outcome s = (f a).outcome s' := by
      simp only [outcome, bind_ok h]
    rw [hnext]
    exact trans_of R ht (hf a s' h)

theorem Moves.map [IsPreorder σ R] {t : Task σ α} {s : σ} (g : α → β) (ht : Moves R t s) :
    Moves R (g <$> t) s := by
  rw [map_eq_pure_bind]
  exact ht.bind fun a s' _ => moves_pure (g a) s'

theorem moves_get_bind {f : σ → Task σ β} {s : σ} (h : Moves R (f s) s) :
    Moves R (get >>= f) s := h

theorem moves_modify {f : σ → σ} {s : σ} (h : R s (f s)) : Moves R (modify f : Task σ PUnit) s := h

theorem moves_modifyGet {f : σ → α × σ} {s : σ} (h : R s (f s).2) :
    Moves R (modifyGet f : Task σ α) s := h

theorem moves_look [IsPreorder σ R] (f : σ → Except Fault α) (s : σ) : Moves R (look f) s := by
  unfold Moves outcome look
  cases f s <;> exact refl_of R s

theorem moves_step [IsPreorder σ R] {f : σ → Except Fault (α × σ)} {s : σ}
    (h : ∀ a s', f s = .ok (a, s') → R s s') : Moves R (step f) s := by
  unfold Moves outcome step
  cases hf : f s with
  | error e => exact refl_of R s
  | ok p => exact h p.1 p.2 hf

theorem Moves.on {Q : τ → τ → Prop} {part : σ → τ} {put : σ → τ → σ} {t : Task τ α} {s : σ}
    (ht : Moves Q t (part s)) (hput : ∀ p, Q (part s) p → R s (put s p)) :
    Moves R (on part put t) s := by
  unfold Moves outcome Task.on at *
  cases h : t (part s) <;> simp only [h] at ht ⊢ <;> exact hput _ ht

theorem moves_forEach [IsPreorder σ R] {act : α → Task σ Unit} (items : List α)
    (h : ∀ a ∈ items, ∀ s, Moves R (act a) s) (s : σ) : Moves R (forEach act items) s := by
  induction items generalizing s with
  | nil => exact moves_pure () s
  | cons a rest ih =>
    exact (h a List.mem_cons_self s).bind fun _ s' _ =>
      ih (fun b hb => h b (List.mem_cons_of_mem _ hb)) s'

end Task
end Gameroom
