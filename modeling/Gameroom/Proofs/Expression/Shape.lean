import Gameroom.Proofs.Expression.Lexing
import Gameroom.Proofs.Expression.Place

/-!
Texts that are the same but for their numbers. If minus signs in front of these differ only where
they may come and go, either both texts may be read or neither, and their tokens pair up.
-/

open Float.Model.UnpackedFloat

namespace Gameroom.Expression
open Token

/-! ### Texts that may be read -/

def Clean : List Char → Prop
  | [] => True
  | c :: s => (isAllowed c ∨ c = '\n' ∧ s = []) ∧ Clean s

variable {s s' w : List Char}

theorem clean_append (hw : ∀ c ∈ w, isAllowed c) : Clean (w ++ s) ↔ Clean s := by
  induction w with
  | nil => rfl
  | cons c w ih =>
    obtain ⟨hc, hw⟩ := List.forall_mem_cons.1 hw
    rw [List.cons_append, Clean, ih hw]
    exact and_iff_right (.inl hc)

theorem clean_iff (s : List Char) :
    Clean s ↔ ∀ c ∈ if s.getLast? = some '\n' then s.dropLast else s, isAllowed c := by
  induction s with
  | nil => simp [Clean]
  | cons c s ih =>
    rw [Clean, ih]
    cases s with
    | nil => by_cases hc : c = '\n' <;> simp [hc]
    | cons d s =>
      rw [List.getLast?_cons_cons]
      split_ifs <;> simp

theorem allowed_iff : allowed s ↔ (∃ c ∈ s.head?, isAllowed c) ∧ Clean s := by
  rw [allowed, clean_iff, Bool.and_eq_true, List.all_eq_true, decide_eq_true_iff,
    and_congr_left_iff]
  intro hall
  rcases s with _ | ⟨c, _ | ⟨d, s⟩⟩
  · simp
  · by_cases hc : c = '\n'
    · subst hc
      simp [show isAllowed '\n' = false by decide]
    · simp_all
  · rw [List.getLast?_cons_cons] at hall ⊢
    split_ifs at hall ⊢ <;> simp_all

/-! ### Texts of one shape -/

/-- Two texts from a place on, the same but for their numbers. The signs of these may differ where a
minus sign may come or go. Where the character before the place joins no number starts. -/
inductive Shaped : Place → Bool → List Char → List Char → Prop
  | nil {p : Place} {joined : Bool} : Shaped p joined [] []
  | char {p : Place} {joined : Bool} (c : Char) {s s' : List Char}
      (h : Shaped (p.step c) (joins c) s s') : Shaped p joined (c :: s) (c :: s')
  | number {p : Place} {sign sign' : Sign} (hp : sign ≠ sign' → p.Admits) (n n' : Numeral)
      {s s' : List Char} (hs : Free s) (hs' : Free s') (h : Shaped p.closed true s s') :
      Shaped p false (FloatFormat.signed sign n.text ++ s) (FloatFormat.signed sign' n'.text ++ s')

theorem joins_of_goesOn {c d : Char} (h : goesOn c d) : joins d = joins c := by
  unfold goesOn at h
  split_ifs at h with hc
  · rw [h, hc]
  · rw [Bool.not_eq_true] at hc
    rw [hc]
    simp only [Bool.or_eq_true, beq_iff_eq] at h
    obtain (rfl | rfl) | rfl := h <;> rfl

theorem not_goesOn_signed {c d : Char} (hc : joins c = false) {sign : Sign} {n : Numeral}
    (hd : d ∈ (FloatFormat.signed sign n.text ++ s).head?) : goesOn c d = false := by
  have hnot : joins d → goesOn c d = false := by
    intro hd
    by_contra hgoes
    rw [joins_of_goesOn (by simpa using hgoes), hc] at hd
    cases hd
  cases sign with
  | negative =>
    cases hd
    rw [goesOn, if_neg (by simp [hc])]
    rfl
  | positive =>
    rw [FloatFormat.signed, List.head?_append_of_ne_nil _ n.text_ne_nil] at hd
    exact hnot (n.text_joins d (List.mem_of_head? hd))

namespace Shaped
variable {p : Place} {joined : Bool} {c : Char}

theorem takeWhile_eq (h : Shaped p joined s s') (hc : joined = joins c) :
    s.takeWhile (goesOn c) = s'.takeWhile (goesOn c) := by
  induction h with
  | nil => rfl
  | char d _ ih =>
    rw [List.takeWhile_cons, List.takeWhile_cons]
    split_ifs with hd
    · rw [ih (joins_of_goesOn hd)]
    · rfl
  | @number p sign sign' hp n n' s s' =>
    have hstop (sign : Sign) (n : Numeral) (s : List Char) :
        (FloatFormat.signed sign n.text ++ s).takeWhile (goesOn c) = [] := by
      have hne := List.append_ne_nil_of_left_ne_nil (signed_ne_nil sign n) s
      rw [← List.cons_head_tail hne, List.takeWhile_cons_of_neg]
      rw [not_goesOn_signed hc.symm (List.head?_eq_some_head hne)]
      exact Bool.false_ne_true
    rw [hstop, hstop]

theorem split (h : Shaped p joined s s') (hc : joined = joins c) (hw : ∀ d ∈ w, goesOn c d)
    {rest : List Char} (hs : s = w ++ rest) :
    ∃ rest', s' = w ++ rest' ∧ Shaped (p.after w) joined rest rest' := by
  induction w generalizing p s s' with
  | nil =>
    subst hs
    exact ⟨s', rfl, h⟩
  | cons d w ih =>
    obtain ⟨hd, hrest⟩ := List.forall_mem_cons.1 hw
    cases h with
    | nil => cases hs
    | char d' h =>
      obtain ⟨rfl, htail⟩ := List.cons.inj hs
      rw [(joins_of_goesOn hd).trans hc.symm] at h
      obtain ⟨rest', rfl, hshaped⟩ := ih h hrest htail
      exact ⟨rest', rfl, hshaped⟩
    | number =>
      rw [not_goesOn_signed hc.symm (by rw [hs]; rfl)] at hd
      cases hd

theorem eq_nil (h : Shaped p joined s s') (hs : s = []) : s' = [] := by
  cases h with
  | nil => rfl
  | char => cases hs
  | number => exact absurd hs (List.append_ne_nil_of_left_ne_nil (signed_ne_nil _ _) _)

theorem clean (h : Shaped p joined s s') (hclean : Clean s) : Clean s' := by
  induction h with
  | nil => trivial
  | char c h ih => exact ⟨hclean.1.imp_right fun hend => ⟨hend.1, h.eq_nil hend.2⟩, ih hclean.2⟩
  | number _ n n' _ _ _ ih =>
    rw [clean_append (signed_isAllowed _ n)] at hclean
    exact (clean_append (signed_isAllowed _ n')).2 (ih hclean)

theorem allowed (h : Shaped p joined s s') (hs : allowed s) : Expression.allowed s' := by
  rw [allowed_iff] at hs ⊢
  refine ⟨?_, h.clean hs.2⟩
  cases h with
  | nil => exact hs.1
  | char c _ => exact hs.1
  | @number _ sign sign' _ n n' =>
    have hne := signed_ne_nil sign' n'
    rw [List.head?_append_of_ne_nil _ hne]
    exact ⟨_, List.head?_eq_some_head hne, signed_isAllowed _ n' _ (List.head_mem hne)⟩

end Shaped

/-! ### Their tokens -/

variable {p : Place} {ts ts' : List Token} {n : Nat}

/-- The characters of an operator lead where the operator leads, also in its longer spelling. -/
theorem after_scanned {c : Char} {o : Op} (h : scan? (c :: s) = some (.op o, n + 1)) :
    p.after (c :: s.take n) = p.afterOp o := by
  cases hc : joins c with
  | true =>
    rw [scan_of_joins hc] at h
    split at h <;> cases h
  | false =>
    rw [scan_of_not_joins hc] at h
    obtain ⟨⟨o', n'⟩, hscan, heq⟩ := Option.map_eq_some_iff.1 h
    cases heq
    unfold Op.scan? at hscan
    obtain ⟨due, opened, signs⟩ := p
    split at hscan
    all_goals first
      | obtain ⟨rfl, rfl⟩ := List.cons.inj ‹_ :: _ = _›
        cases hscan
        cases due <;> rfl
      | cases hscan

theorem Paired.token {c : Char} {t : Token} (h : scan? (c :: s) = some (t, n + 1))
    (hpaired : Paired (p.after (c :: s.take n)) ts ts') : Paired p (t :: ts) (t :: ts') := by
  cases t with
  | op o =>
    rw [after_scanned h] at hpaired
    exact .op o hpaired
  | number w x =>
    have hjoins : joins c := by
      by_contra hnot
      rw [scan_of_not_joins (by simpa using hnot)] at h
      obtain ⟨o, -, heq⟩ := Option.map_eq_some_iff.1 h
      cases heq
    have hword : ∀ d ∈ c :: s.take n, joins d := List.forall_mem_cons.2
      ⟨hjoins, fun d hd => (joins_of_goesOn (scan_tail h d hd)).trans hjoins⟩
    rw [Place.after_joins (List.cons_ne_nil _ _) hword] at hpaired
    exact .number w w x x hpaired

theorem Paired.signed {sign sign' : Sign} (hp : sign ≠ sign' → p.Admits) (n n' : Numeral)
    (h : Paired p.closed ts ts') :
    Paired p ((signedLexemes sign n).map Lexeme.token ++ ts)
      ((signedLexemes sign' n').map Lexeme.token ++ ts') := by
  cases sign with
  | positive =>
    cases sign' with
    | positive => exact .number _ _ _ _ h
    | negative => exact .come (hp (by simp)) _ _ _ _ h
  | negative =>
    cases sign' with
    | positive => exact .gone (hp (by simp)) _ _ _ _ h
    | negative =>
      have hclosed : (p.afterOp .sub).closed = p.closed := by
        obtain ⟨due, opened, signs⟩ := p
        cases due <;> rfl
      rw [← hclosed] at h
      exact .op .sub (.number _ _ _ _ h)

theorem Shaped.paired {joined : Bool} (h : Shaped p joined s s') (hts : tokens? s = some ts) :
    ∃ ts', tokens? s' = some ts' ∧ Paired p ts ts' := by
  induction hlength : s.length using Nat.strong_induction_on generalizing p joined s s' ts with
  | _ length ih =>
    subst hlength
    cases h with
    | nil =>
      obtain rfl := Option.some.inj (tokens?_nil.symm.trans hts)
      exact ⟨[], tokens?_nil, .nil⟩
    | @char _ _ c s s' h =>
      cases hblank : Text.isBlank c with
      | true =>
        rw [tokens?_blank hblank] at hts ⊢
        rw [Place.step_blank hblank] at h
        exact ih _ (Nat.lt_succ_self _) h hts rfl
      | false =>
        -- What goes on with the first character is the same in both texts, so the token is.
        rw [tokens?_cons hblank] at hts ⊢
        rw [← scan_congr (h.takeWhile_eq rfl)]
        obtain ⟨⟨t, k⟩, hscan, hfound⟩ := Option.bind_eq_some_iff.1 hts
        obtain ⟨ts, hrest, rfl⟩ := Option.map_eq_some_iff.1 hfound
        obtain ⟨k, rfl⟩ := Nat.exists_eq_succ_of_ne_zero (scan?_pos hscan).ne'
        have hlength : (s.take k).length = k :=
          List.length_take_of_le (Nat.le_of_succ_le_succ (scan_length hscan))
        obtain ⟨rest', rfl, hshaped⟩ := h.split rfl (scan_tail hscan)
          (List.take_append_drop k s).symm
        have hshorter : (s.drop k).length < (c :: s).length := by
          rw [List.length_drop, List.length_cons]
          omega
        obtain ⟨ts', hts', hpaired⟩ := ih _ hshorter hshaped hrest rfl
        refine ⟨t :: ts', ?_, hpaired.token hscan⟩
        rw [hscan, Option.bind_some, List.drop_succ_cons, List.drop_left' hlength, hts']
        rfl
    | @number _ sign sign' hp n n' s s' hs hs' h =>
      rw [tokens?_signed sign n hs] at hts
      obtain ⟨ts, hrest, rfl⟩ := Option.map_eq_some_iff.1 hts
      have hshorter : s.length < (FloatFormat.signed sign n.text ++ s).length := by
        have := List.length_pos_iff.2 (signed_ne_nil sign n)
        rw [List.length_append]
        omega
      obtain ⟨ts', hts', hpaired⟩ := ih _ hshorter h hrest rfl
      rw [tokens?_signed sign' n' hs', hts']
      exact ⟨_, rfl, hpaired.signed hp n n'⟩

end Gameroom.Expression
