import Gameroom.Proofs.Table
import Gameroom.Proofs.Task

/-!
Two runs side by side. Each starts from its own state; their results belong together, or the same
fault stops both, and the states that they leave belong together again.
-/

namespace Gameroom

/-- Results that belong together in that they are the same. -/
abbrev Same {α : Type} (a a' : α) : Prop := a' = a

theorem rel_refl {α : Type} {V : α → α → Prop} (hV : ∀ a, V a a) (a : Option α) :
    Option.Rel V a a := by
  cases a with
  | none => exact .none
  | some a => exact .some (hV a)

theorem forall₂_push {α : Type} {V : α → α → Prop} {xs xs' : Array α} {a a' : α}
    (h : List.Forall₂ V xs.toList xs'.toList) (ha : V a a') :
    List.Forall₂ V (xs.push a).toList (xs'.push a').toList := by
  rw [Array.toList_push, Array.toList_push]
  exact List.rel_append h (.cons ha .nil)

/-- Two results that belong together, or the same error. -/
inductive Answered {ε α : Type} (V : α → α → Prop) : Except ε α → Except ε α → Prop
  | ok {a a' : α} (h : V a a') : Answered V (.ok a) (.ok a')
  | error (e : ε) : Answered V (.error e) (.error e)

namespace Answered
variable {ε α β : Type} {V : α → α → Prop} {W : β → β → Prop}

theorem refl (hV : ∀ a, V a a) (x : Except ε α) : Answered V x x := by
  cases x with
  | ok a => exact .ok (hV a)
  | error e => exact .error e

theorem bind {x x' : Except ε α} {f f' : α → Except ε β} (h : Answered V x x')
    (hf : ∀ a a', V a a' → Answered W (f a) (f' a')) : Answered W (x >>= f) (x' >>= f') := by
  cases h with
  | ok h => exact hf _ _ h
  | error e => exact .error e

theorem of_eq {x x' : Except ε α} (h : x' = x) : Answered Same x x' := by
  subst h
  exact refl (V := Same) (fun _ => rfl) x'

end Answered

namespace Task
variable {σ τ α β : Type}

/-- The ends of two runs, with results and states that belong together. -/
inductive Ended (R : σ → σ → Prop) (V : α → α → Prop) :
    EStateM.Result Fault σ α → EStateM.Result Fault σ α → Prop
  | ok {a a' : α} {s s' : σ} (hV : V a a') (hR : R s s') : Ended R V (.ok a s) (.ok a' s')
  | error {s s' : σ} (fault : Fault) (hR : R s s') : Ended R V (.error fault s) (.error fault s')

/-- From two states two tasks end alike. -/
def Agree (R : σ → σ → Prop) (V : α → α → Prop) (t t' : Task σ α) (s s' : σ) : Prop :=
  Ended R V (t s) (t' s')

variable {R : σ → σ → Prop} {V : α → α → Prop} {W : β → β → Prop} {s s' : σ}

theorem agree_pure {a a' : α} (hV : V a a') (hR : R s s') : Agree R V (pure a) (pure a') s s' :=
  .ok hV hR

theorem agree_throw (fault : Fault) (hR : R s s') :
    Agree R V (throw fault : Task σ α) (throw fault) s s' := .error fault hR

theorem agree_refl (t : Task σ α) (h : Same s s') : Agree Same Same t t s s' := by
  subst h
  unfold Agree
  cases t s' with
  | ok a s₁ => exact .ok rfl rfl
  | error fault s₁ => exact .error fault rfl

theorem Agree.bind {t t' : Task σ α} {f f' : α → Task σ β} (ht : Agree R V t t' s s')
    (hf : ∀ a a' s₁ s₁', V a a' → R s₁ s₁' → Agree R W (f a) (f' a') s₁ s₁') :
    Agree R W (t >>= f) (t' >>= f') s s' := by
  unfold Agree at ht ⊢
  simp only [Bind.bind, EStateM.bind]
  generalize t s = x, t' s' = x' at ht ⊢
  cases ht with
  | ok hV hR => exact hf _ _ _ _ hV hR
  | error fault hR => exact .error fault hR

theorem Agree.bind_same {t t' : Task σ α} {f f' : α → Task σ β} (ht : Agree R Same t t' s s')
    (hf : ∀ a s₁ s₁', R s₁ s₁' → Agree R W (f a) (f' a) s₁ s₁') :
    Agree R W (t >>= f) (t' >>= f') s s' := by
  refine ht.bind ?_
  rintro _ a s₁ s₁' rfl h
  exact hf a s₁ s₁' h

theorem Agree.outcome {t t' : Task σ α} (h : Agree R V t t' s s') :
    Answered V (t.outcome s).1 (t'.outcome s').1 ∧ R (t.outcome s).2 (t'.outcome s').2 := by
  unfold Agree at h
  unfold Task.outcome
  generalize t s = x, t' s' = x' at h ⊢
  cases h with
  | ok hV hR => exact ⟨.ok hV, hR⟩
  | error fault hR => exact ⟨.error fault, hR⟩

theorem Agree.mono {V' : α → α → Prop} {t t' : Task σ α} (h : Agree R V t t' s s')
    (hV : ∀ a a', V a a' → V' a a') : Agree R V' t t' s s' := by
  unfold Agree at h ⊢
  generalize t s = x, t' s' = x' at h ⊢
  cases h with
  | ok h hR => exact .ok (hV _ _ h) hR
  | error fault hR => exact .error fault hR

theorem agree_get_bind {f f' : σ → Task σ β} (h : Agree R W (f s) (f' s') s s') :
    Agree R W (get >>= f) (get >>= f') s s' := h

theorem agree_modify {f f' : σ → σ} (h : R (f s) (f' s')) :
    Agree R (fun _ _ => True) (modify f : Task σ PUnit) (modify f') s s' := .ok trivial h

theorem agree_modifyGet {f f' : σ → α × σ} (hV : V (f s).1 (f' s').1) (hR : R (f s).2 (f' s').2) :
    Agree R V (modifyGet f : Task σ α) (modifyGet f') s s' := .ok hV hR

theorem agree_look {f f' : σ → Except Fault α} (h : Answered V (f s) (f' s')) (hR : R s s') :
    Agree R V (look f) (look f') s s' := by
  unfold Agree look
  generalize f s = x, f' s' = x' at h ⊢
  cases h with
  | ok h => exact .ok h hR
  | error fault => exact .error fault hR

theorem agree_look_same {f f' : σ → Except Fault α} (h : f' s' = f s) (hR : R s s') :
    Agree R Same (look f) (look f') s s' := agree_look (.of_eq h) hR

theorem agree_step {f f' : σ → Except Fault (α × σ)}
    (h : Answered (fun p p' => V p.1 p'.1 ∧ R p.2 p'.2) (f s) (f' s')) (hR : R s s') :
    Agree R V (step f) (step f') s s' := by
  unfold Agree step
  generalize f s = x, f' s' = x' at h ⊢
  cases h with
  | ok h => exact .ok h.1 h.2
  | error fault => exact .error fault hR

theorem Agree.on {Q : τ → τ → Prop} {part : σ → τ} {put : σ → τ → σ} {t t' : Task τ α}
    (ht : Agree Q V t t' (part s) (part s')) (hput : ∀ p p', Q p p' → R (put s p) (put s' p')) :
    Agree R V (Task.on part put t) (Task.on part put t') s s' := by
  unfold Agree at ht
  unfold Agree Task.on
  generalize t (part s) = x, t' (part s') = x' at ht ⊢
  cases ht with
  | ok hV hQ => exact .ok hV (hput _ _ hQ)
  | error fault hQ => exact .error fault (hput _ _ hQ)

theorem agree_forEach {act act' : α → Task σ Unit} (items : List α)
    (h : ∀ a ∈ items, ∀ s s', R s s' → Agree R (fun _ _ => True) (act a) (act' a) s s')
    (hR : R s s') : Agree R (fun _ _ => True) (forEach act items) (forEach act' items) s s' := by
  induction items generalizing s s' with
  | nil => exact agree_pure trivial hR
  | cons a rest ih =>
    exact (h a List.mem_cons_self s s' hR).bind fun _ _ _ _ _ h₁ =>
      ih (fun b hb => h b (List.mem_cons_of_mem _ hb)) h₁

end Task

/-! ### Tables -/

namespace Table
variable {α : Type} {P : α → α → Prop} {t t' : Table α}

/-- Two tables with the same names, under which values stand that belong together. -/
def Matched (P : α → α → Prop) (t t' : Table α) : Prop :=
  List.Forall₂ (fun e e' => e'.1 = e.1 ∧ P e.2 e'.2) t t'

theorem Matched.keys (h : Matched P t t') : t'.keys = t.keys := by
  induction h with
  | nil => rfl
  | cons h _ ih =>
    simp only [Table.keys, List.map_cons] at ih ⊢
    rw [ih, h.1]

theorem Matched.get? (h : Matched P t t') (name : String) :
    Option.Rel P (t.get? name) (t'.get? name) := by
  induction h with
  | nil => exact .none
  | @cons e e' rest rest' h _ ih =>
    obtain ⟨key, value⟩ := e
    obtain ⟨key', value'⟩ := e'
    obtain ⟨rfl, hvalue⟩ := h
    rw [Table.get?, Table.get?]
    split_ifs
    · exact .some hvalue
    · exact ih

theorem Matched.has (h : Matched P t t') (name : String) : t'.has name = t.has name := by
  have hvalue := h.get? name
  unfold Table.has
  generalize t.get? name = x, t'.get? name = x' at hvalue ⊢
  cases hvalue <;> rfl

theorem Matched.put (h : Matched P t t') (name : String) {value value' : α}
    (hvalue : P value value') : Matched P (t.put name value) (t'.put name value') := by
  induction h with
  | nil => exact .cons ⟨rfl, hvalue⟩ .nil
  | @cons e e' rest rest' h hrest ih =>
    obtain ⟨key, old⟩ := e
    obtain ⟨key', old'⟩ := e'
    obtain ⟨rfl, hold⟩ := h
    rw [Table.put, Table.put]
    split_ifs
    · exact .cons ⟨rfl, hvalue⟩ hrest
    · exact .cons ⟨rfl, hold⟩ ih

theorem Matched.drop (h : Matched P t t') (name : String) :
    Matched P (t.drop name) (t'.drop name) := by
  induction h with
  | nil => exact .nil
  | @cons e e' rest rest' h _ ih =>
    unfold Table.drop at ih ⊢
    rw [List.filter_cons, List.filter_cons, h.1]
    split_ifs
    · exact .cons h ih
    · exact ih

theorem Matched.isEmpty (h : Matched P t t') : t'.isEmpty = t.isEmpty := by
  cases h <;> rfl

end Table
end Gameroom
