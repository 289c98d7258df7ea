import Gameroom.Proofs.Agree

/-! Tasks that cannot tell two states apart. -/

namespace Gameroom.Task
variable {σ τ α β : Type} {R : σ → σ → Prop} {s s' : σ}

/-- From two states a task gives the same and ends in states that belong together again. -/
structure Alike (R : σ → σ → Prop) (t : Task σ α) (s s' : σ) : Prop where
  same : (t.outcome s).1 = (t.outcome s').1
  ends : R (t.outcome s).2 (t.outcome s').2

theorem alike_pure (h : R s s') (a : α) : Alike R (pure a) s s' := ⟨rfl, h⟩

theorem alike_throw (h : R s s') (fault : Fault) : Alike R (throw fault : Task σ α) s s' := ⟨rfl, h⟩

theorem alike_iff {t : Task σ α} :
    Alike R t s s' ↔
      (∃ a s₁ s₁', t s = .ok a s₁ ∧ t s' = .ok a s₁' ∧ R s₁ s₁') ∨
        ∃ e s₁ s₁', t s = .error e s₁ ∧ t s' = .error e s₁' ∧ R s₁ s₁' := by
  constructor
  · rintro ⟨hsame, hends⟩
    unfold outcome at hsame hends
    cases h : t s with
    | ok a s₁ =>
      cases h' : t s' with
      | ok a' s₁' =>
        rw [h, h'] at hsame hends
        cases hsame
        exact .inl ⟨a, s₁, s₁', rfl, rfl, hends⟩
      | error e s₁' =>
        rw [h, h'] at hsame
        cases hsame
    | error e s₁ =>
      cases h' : t s' with
      | ok a s₁' =>
        rw [h, h'] at hsame
        cases hsame
      | error e' s₁' =>
        rw [h, h'] at hsame hends
        cases hsame
        exact .inr ⟨e, s₁, s₁', rfl, rfl, hends⟩
  · rintro (⟨a, s₁, s₁', h, h', hR⟩ | ⟨e, s₁, s₁', h, h', hR⟩)
    · exact ⟨by rw [outcome_ok h, outcome_ok h'], by rwa [outcome_ok h, outcome_ok h']⟩
    · exact ⟨by rw [outcome_error h, outcome_error h'], by rwa [outcome_error h, outcome_error h']⟩

theorem alike_iff_agree {t : Task σ α} : Alike R t s s' ↔ Agree R Same t t s s' := by
  rw [alike_iff]
  unfold Agree
  constructor
  · rintro (⟨a, s₁, s₁', h, h', hR⟩ | ⟨e, s₁, s₁', h, h', hR⟩) <;> rw [h, h']
    · exact .ok rfl hR
    · exact .error e hR
  · intro h
    generalize t s = x, t s' = x' at h
    cases h with
    | @ok a _ s₁ s₁' hsame hR => exact .inl ⟨a, s₁, s₁', rfl, hsame ▸ rfl, hR⟩
    | @error s₁ s₁' e hR => exact .inr ⟨e, s₁, s₁', rfl, rfl, hR⟩

theorem Alike.bind_eq {t : Task σ α} {f : α → Task σ β} (ht : Alike R t s s')
    (hf : ∀ a s₁ s₁', t s = .ok a s₁ → R s₁ s₁' → Alike R (f a) s₁ s₁') :
    Alike R (t >>= f) s s' := by
  rcases alike_iff.1 ht with ⟨a, s₁, s₁', h, h', hR⟩ | ⟨e, s₁, s₁', h, h', hR⟩
  · obtain ⟨hsame, hends⟩ := hf a s₁ s₁' h hR
    unfold outcome at hsame hends
    constructor <;> simpa only [outcome, bind_ok h, bind_ok h']
  · exact alike_iff.2 (.inr ⟨e, s₁, s₁', bind_error h, bind_error h', hR⟩)

theorem Alike.bind {t : Task σ α} {f : α → Task σ β} (ht : Alike R t s s')
    (hf : ∀ a s₁ s₁', R s₁ s₁' → Alike R (f a) s₁ s₁') : Alike R (t >>= f) s s' :=
  ht.bind_eq fun a s₁ s₁' _ => hf a s₁ s₁'

theorem Alike.map {t : Task σ α} (g : α → β) (ht : Alike R t s s') : Alike R (g <$> t) s s' := by
  rw [map_eq_pure_bind]
  exact ht.bind fun a _ _ h => alike_pure h (g a)

theorem alike_get_bind {f : σ → Task σ β} (hf : f s' = f s) (h : Alike R (f s) s s') :
    Alike R (get >>= f) s s' := by
  have hget : (get >>= f).outcome s' = (f s).outcome s' := by
    rw [← hf]
    rfl
  exact ⟨hget ▸ h.same, hget ▸ h.ends⟩

theorem alike_modify {f : σ → σ} (h : R (f s) (f s')) : Alike R (modify f : Task σ PUnit) s s' :=
  ⟨rfl, h⟩

theorem alike_modifyGet {f : σ → α × σ} (hsame : (f s).1 = (f s').1) (h : R (f s).2 (f s').2) :
    Alike R (modifyGet f : Task σ α) s s' := ⟨congrArg Except.ok hsame, h⟩

theorem alike_look {f : σ → Except Fault α} (hf : f s' = f s) (h : R s s') :
    Alike R (look f) s s' := alike_iff_agree.2 (agree_look_same hf h)

theorem alike_on {part : σ → τ} {put : σ → τ → σ} (t : Task τ α) (hpart : part s' = part s)
    (hput : ∀ p, R (put s p) (put s' p)) : Alike R (on part put t) s s' := by
  refine alike_iff_agree.2 ((agree_refl t hpart).on fun p _ hp => ?_)
  rw [hp]
  exact hput p

end Gameroom.Task
