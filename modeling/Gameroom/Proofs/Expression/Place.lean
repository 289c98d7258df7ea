import Gameroom.Proofs.Expression.WellFormed

/-!
Places in a condition, told from what stands before them: whether an operand is due there, and
inside how many signs and parentheses. A minus sign in front of a number may come or go where an
operand is due and one more sign may still be read.
-/

namespace Gameroom.Expression

/-- What stands before a place in a condition. -/
structure Place where
  /-- An operand is due. -/
  due : Bool
  /-- For each open parenthesis, the signs in front of it and the parenthesis, inner ones first. -/
  opened : List Nat
  /-- The signs in front of the operand that is due. -/
  signs : Nat

namespace Place

def start : Place := ⟨true, [], 0⟩

def depth (p : Place) : Nat := p.opened.sum + p.signs

def closed (p : Place) : Place := { p with due := false, signs := 0 }

def step (p : Place) (c : Char) : Place :=
  if joins c then p.closed
  else if c = '(' then ⟨true, (p.signs + 1) :: p.opened, 0⟩
  else if c = ')' then ⟨false, p.opened.tail, 0⟩
  else if p.due ∧ c ∈ ['-', '+', '!'] then { p with signs := p.signs + 1 }
  else if Text.isBlank c then p
  else { p with due := true, signs := 0 }

def after (p : Place) (s : List Char) : Place := s.foldl step p

def Admits (p : Place) : Prop := p.due ∧ p.depth < maxNesting

instance (p : Place) : Decidable p.Admits :=
  inferInstanceAs (Decidable (p.due ∧ p.depth < maxNesting))

variable {p : Place}

theorem closed_eq (hdue : p.due = false) (hsigns : p.signs = 0) : p.closed = p := by
  cases p
  cases hdue
  cases hsigns
  rfl

theorem depth_closed (hsigns : p.signs = 0) : p.closed.depth = p.depth := by
  rw [depth, depth, hsigns]
  rfl

theorem step_joins {c : Char} (hc : joins c) (p : Place) : p.step c = p.closed := if_pos hc

theorem after_joins {s : List Char} (hne : s ≠ []) (h : ∀ c ∈ s, joins c) (p : Place) :
    p.after s = p.closed := by
  induction s generalizing p with
  | nil => exact absurd rfl hne
  | cons c s ih =>
    obtain ⟨hc, hs⟩ := List.forall_mem_cons.1 h
    rw [after, List.foldl_cons, step_joins hc]
    by_cases hnil : s = []
    · rw [hnil]
      rfl
    · exact ih hnil hs p.closed

theorem after_append (p : Place) (s t : List Char) : p.after (s ++ t) = (p.after s).after t :=
  List.foldl_append

theorem step_blank {c : Char} (hc : Text.isBlank c) (p : Place) : p.step c = p := by
  have hjoins : joins c = false := by
    by_contra h
    rw [not_isBlank_of_joins (by simpa using h)] at hc
    cases hc
  have hne {x : Char} (hx : Text.isBlank x = false) : c ≠ x := by
    rintro rfl
    rw [hc] at hx
    cases hx
  have hsign : c ∉ ['-', '+', '!'] := by
    simp [hne (show Text.isBlank '-' = false by decide),
      hne (show Text.isBlank '+' = false by decide), hne (show Text.isBlank '!' = false by decide)]
  rw [step, if_neg (by simp [hjoins]), if_neg (hne (by decide)), if_neg (hne (by decide)),
    if_neg fun h => hsign h.2, if_pos hc]

def afterOp (p : Place) (o : Op) : Place := p.after o.text.toList

theorem afterOp_opening (p : Place) :
    p.afterOp .opening = ⟨true, (p.signs + 1) :: p.opened, 0⟩ := by
  rfl

theorem afterOp_closing (p : Place) : p.afterOp .closing = ⟨false, p.opened.tail, 0⟩ := by
  rfl

theorem afterOp_sign (q : Prefix) (hdue : p.due) :
    p.afterOp q.op = { p with signs := p.signs + 1 } := by
  obtain ⟨due, opened, signs⟩ := p
  obtain rfl : due = true := hdue
  cases q <;> rfl

theorem afterOp_infix (o : Infix) (hdue : p.due = false) :
    p.afterOp o.op = { p with due := true, signs := 0 } := by
  obtain ⟨due, opened, signs⟩ := p
  obtain rfl : due = false := hdue
  cases o <;> rfl

end Place

/-! ### Tokens -/

/-- Two lists of tokens from a place on: the same operators, any numbers at the same places, and
minus signs in front of these that come and go. -/
inductive Paired : Place → List Token → List Token → Prop
  | nil {p : Place} : Paired p [] []
  | op {p : Place} (o : Op) {ts ts' : List Token} (h : Paired (p.afterOp o) ts ts') :
      Paired p (.op o :: ts) (.op o :: ts')
  | number {p : Place} (w w' : List Char) (x x' : Float) {ts ts' : List Token}
      (h : Paired p.closed ts ts') : Paired p (.number w x :: ts) (.number w' x' :: ts')
  | gone {p : Place} (hp : p.Admits) (w w' : List Char) (x x' : Float) {ts ts' : List Token}
      (h : Paired p.closed ts ts') :
      Paired p (.op .sub :: .number w x :: ts) (.number w' x' :: ts')
  | come {p : Place} (hp : p.Admits) (w w' : List Char) (x x' : Float) {ts ts' : List Token}
      (h : Paired p.closed ts ts') :
      Paired p (.number w x :: ts) (.op .sub :: .number w' x' :: ts')

variable {p : Place} {ts ts' rest : List Token}

theorem Paired.of_op {o : Op} (ho : o ≠ .sub ∨ p.due = false) (h : Paired p (.op o :: ts) ts') :
    ∃ ts'', ts' = .op o :: ts'' ∧ Paired (p.afterOp o) ts ts'' := by
  cases h with
  | op _ h => exact ⟨_, rfl, h⟩
  | gone hp =>
    obtain ho | hdue := ho
    · exact absurd rfl ho
    · rw [hp.1] at hdue
      cases hdue

theorem Derivation.eq_number {t : Derivation 6} {w : List Char} {x : Float}
    (h : t.tokens ++ rest = .number w x :: ts) : t = .number w x ∧ rest = ts := by
  cases t with
  | number => simpa [Derivation.tokens] using h
  | signed => cases (List.cons.inj h).1
  | parentheses => cases (List.cons.inj h).1
  | chain hk => exact absurd hk (lt_irrefl 6)

mutual

/-- Signs that come and go leave a derivation that nests within the same bound. The bound is carried
for the nesting of a derivation and the depth of its place together; signs stand only in front of
what is tightest. -/
theorem Derivation.paired {k : Nat} : ∀ {t : Derivation k} {p : Place} {rest ts' : List Token},
    Paired p (t.tokens ++ rest) ts' → p.due → t.nesting + p.depth ≤ maxNesting →
      (k < 6 → p.signs = 0) → ∃ (t' : Derivation k) (rest' : List Token),
        ts' = t'.tokens ++ rest' ∧ t'.nesting + p.depth ≤ maxNesting ∧ Paired p.closed rest rest'
  | .number w x, p, rest, ts', h, hdue, hbound, hsigns => by
    rw [Derivation.tokens, List.singleton_append] at h
    cases h with
    | number _ w' _ x' h => exact ⟨.number w' x', _, rfl, hbound, h⟩
    | come hp _ w' _ x' h =>
      refine ⟨.signed .minus (.number w' x'), _, rfl, ?_, h⟩
      rw [Derivation.nesting, Derivation.nesting, Nat.zero_add, Nat.add_comm]
      exact hp.2
  | .signed q operand, p, rest, ts', h, hdue, hbound, hsigns => by
    rw [Derivation.tokens, List.cons_append] at h
    rw [Derivation.nesting] at hbound
    generalize htokens : operand.tokens ++ rest = ts at h
    generalize hop : q.op = o at h
    cases h with
    | op _ h =>
      subst htokens hop
      rw [Place.afterOp_sign q hdue] at h
      obtain ⟨operand', rest', rfl, hbound', hrest⟩ := Derivation.paired h hdue
        (by rw [Place.depth] at hbound ⊢; dsimp only; omega) (by omega)
      refine ⟨.signed q operand', rest', rfl, ?_, hrest⟩
      rw [Place.depth] at hbound' ⊢
      rw [Derivation.nesting]
      dsimp only at hbound'
      omega
    | gone hp w w' x x' h =>
      -- The sign was that of a number alone, which is left.
      obtain ⟨rfl, rfl⟩ := Derivation.eq_number htokens
      refine ⟨.number w' x', _, rfl, ?_, h⟩
      rw [Derivation.nesting] at hbound ⊢
      omega
  | .parentheses inner, p, rest, ts', h, hdue, hbound, hsigns => by
    rw [Derivation.tokens, List.cons_append, List.append_assoc] at h
    rw [Derivation.nesting] at hbound
    obtain ⟨ts'', rfl, hinner⟩ := h.of_op (.inl (by decide))
    rw [Place.afterOp_opening] at hinner
    obtain ⟨inner', rest', rfl, hbound', hrest⟩ := Derivation.paired hinner rfl
      (by rw [Place.depth] at hbound ⊢; simp only [List.sum_cons]; omega) fun _ => rfl
    rw [List.singleton_append] at hrest
    obtain ⟨rest'', rfl, hclosed⟩ := hrest.of_op (.inl (by decide))
    rw [Place.afterOp_closing] at hclosed
    refine ⟨.parentheses inner', rest'', ?_, ?_, hclosed⟩
    · rw [Derivation.tokens, List.cons_append, List.append_assoc, List.singleton_append]
    · rw [Place.depth] at hbound' ⊢
      rw [Derivation.nesting]
      simp only [List.sum_cons] at hbound'
      omega
  | .chain hk first more, p, rest, ts', h, hdue, hbound, hsigns => by
    rw [Derivation.tokens, List.append_assoc] at h
    rw [Derivation.nesting] at hbound
    have hclosed := Place.depth_closed (hsigns hk)
    obtain ⟨first', rest', rfl, hfirst, hrest⟩ := Derivation.paired h hdue (by omega)
      fun _ => hsigns hk
    obtain ⟨more', rest'', rfl, hmore, hrest⟩ := Operations.paired hrest rfl rfl (by omega)
    refine ⟨.chain hk first' more', rest'', ?_, ?_, hrest⟩
    · rw [Derivation.tokens, List.append_assoc]
    · rw [Derivation.nesting]
      omega

theorem Operations.paired {k : Nat} : ∀ {m : Operations k} {p : Place} {rest ts' : List Token},
    Paired p (m.tokens ++ rest) ts' → p.due = false → p.signs = 0 →
      m.nesting + p.depth ≤ maxNesting → ∃ (m' : Operations k) (rest' : List Token),
        ts' = m'.tokens ++ rest' ∧ m'.nesting + p.depth ≤ maxNesting ∧ Paired p rest rest'
  | .nil, p, rest, ts', h, _, _, hbound => ⟨.nil, ts', rfl, hbound, h⟩
  | .cons o ho operand more, p, rest, ts', h, hdue, hsigns, hbound => by
    rw [Operations.tokens, List.cons_append, List.append_assoc] at h
    rw [Operations.nesting] at hbound
    obtain ⟨ts'', rfl, hoperand⟩ := h.of_op (.inr hdue)
    rw [Place.afterOp_infix o hdue] at hoperand
    have hdepth : Place.depth { p with due := true, signs := 0 } = p.depth := by
      rw [Place.depth, Place.depth, hsigns]
    obtain ⟨operand', rest', rfl, hoperand', hrest⟩ := Derivation.paired hoperand rfl (by omega)
      fun _ => rfl
    have hclosed : Place.closed { p with due := true, signs := 0 } = p :=
      Place.closed_eq hdue hsigns
    rw [hclosed] at hrest
    obtain ⟨more', rest'', rfl, hmore, hrest⟩ := Operations.paired hrest hdue hsigns (by omega)
    refine ⟨.cons o ho operand' more', rest'', ?_, ?_, hrest⟩
    · rw [Operations.tokens, List.cons_append, List.append_assoc]
    · rw [Operations.nesting]
      omega

end

theorem WellFormed.paired (h : WellFormed ts) (hpaired : Paired .start ts ts') :
    WellFormed ts' := by
  obtain ⟨t, rfl, hnesting⟩ := h
  rw [← List.append_nil t.tokens] at hpaired
  obtain ⟨t', rest', rfl, hnesting', hrest⟩ := Derivation.paired hpaired rfl hnesting fun _ => rfl
  cases hrest
  exact ⟨t', (List.append_nil _).symm, hnesting'⟩

end Gameroom.Expression
