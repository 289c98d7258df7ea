import Gameroom.Proofs.Expression.Meaning
import Gameroom.Proofs.Task

/-!
The grammar of conditions. A list of tokens has at most one derivation, and it is read exactly if it
has one that does not nest too deep and divides by no zero.
-/

namespace Gameroom.Expression

mutual

/-- A derivation from a level of the grammar. At the levels below 6 stand the operators between two
values, from loose to tight, and at level 6 all that needs none. -/
inductive Derivation : Nat → Type
  | number (text : List Char) (x : Float) : Derivation 6
  | signed (p : Prefix) (operand : Derivation 6) : Derivation 6
  | parentheses (inner : Derivation 0) : Derivation 6
  | chain {k : Nat} (hk : k < 6) (first : Derivation (k + 1)) (more : Operations k) : Derivation k

/-- Operators of a level, each with the operand after it. -/
inductive Operations : Nat → Type
  | nil {k : Nat} : Operations k
  | cons {k : Nat} (o : Infix) (ho : o.level = k) (operand : Derivation (k + 1))
      (rest : Operations k) : Operations k

end

mutual

def Derivation.tokens {k : Nat} : Derivation k → List Token
  | .number text x => [.number text x]
  | .signed p operand => .op p.op :: operand.tokens
  | .parentheses inner => .op .opening :: (inner.tokens ++ [.op .closing])
  | .chain _ first more => first.tokens ++ more.tokens

def Operations.tokens {k : Nat} : Operations k → List Token
  | .nil => []
  | .cons o _ operand rest => .op o.op :: (operand.tokens ++ rest.tokens)

end

mutual

/-- The most signs and parentheses around a token. -/
def Derivation.nesting {k : Nat} : Derivation k → Nat
  | .number _ _ => 0
  | .signed _ operand => operand.nesting + 1
  | .parentheses inner => inner.nesting + 1
  | .chain _ first more => max first.nesting more.nesting

def Operations.nesting {k : Nat} : Operations k → Nat
  | .nil => 0
  | .cons _ _ operand rest => max operand.nesting rest.nesting

end

mutual

/-- What a derivation means, operators taken from the left. A quotient by zero leaves it without a
value. -/
def Derivation.value {k : Nat} : Derivation k → Option Value
  | .number _ x => some (.number x)
  | .signed p operand => operand.value.map p.apply
  | .parentheses inner => inner.value
  | .chain _ first more => first.value.bind more.value

def Operations.value {k : Nat} : Operations k → Value → Option Value
  | .nil, a => some a
  | .cons o _ operand rest, a => operand.value.bind fun b => (o.apply a b).bind rest.value

end

mutual

def Derivation.HasZeroDivisor {k : Nat} : Derivation k → Prop
  | .number _ _ => False
  | .signed _ operand => operand.HasZeroDivisor
  | .parentheses inner => inner.HasZeroDivisor
  | .chain _ first more => first.HasZeroDivisor ∨ more.HasZeroDivisor

def Operations.HasZeroDivisor {k : Nat} : Operations k → Prop
  | .nil => False
  | .cons o _ operand rest => operand.HasZeroDivisor ∨ rest.HasZeroDivisor ∨
      (o = .div ∧ ∃ v, operand.value = some v ∧ v.toFloat == 0)

end

/-! ### Zero divisors -/

mutual

theorem Derivation.value_eq_none {k : Nat} :
    ∀ t : Derivation k, t.value = none ↔ t.HasZeroDivisor
  | .number _ _ => by simp [Derivation.value, Derivation.HasZeroDivisor]
  | .signed _ operand => by
    simpa [Derivation.value, Derivation.HasZeroDivisor] using operand.value_eq_none
  | .parentheses inner => inner.value_eq_none
  | .chain _ first more => by
    rw [Derivation.HasZeroDivisor, ← first.value_eq_none, Derivation.value]
    cases first.value with
    | none => simp
    | some a => simpa using more.value_eq_none a

theorem Operations.value_eq_none {k : Nat} :
    ∀ (m : Operations k) (a : Value), m.value a = none ↔ m.HasZeroDivisor
  | .nil, _ => by simp [Operations.value, Operations.HasZeroDivisor]
  | .cons o _ operand rest, a => by
    rw [Operations.HasZeroDivisor, ← operand.value_eq_none, Operations.value]
    cases operand.value with
    | none => simp
    | some b =>
      have hzero := Tree.apply_eq_none (o := o) (a := a) (b := b)
      rw [Option.bind_some]
      cases happly : o.apply a b with
      | none => simp [hzero.1 happly]
      | some c =>
        have hdivisor : ¬(o = .div ∧ b.toFloat == 0) := by simp [← hzero, happly]
        simpa [hdivisor] using rest.value_eq_none c

end

/-! ### One derivation -/

/-- A text does not go on with an operator of a level or of a tighter one. -/
def Ends (k : Nat) (rest : List Token) : Prop :=
  ∀ t ∈ rest.head?, ∀ j, k ≤ j → opOf? (operators j) t = none

theorem Ends.succ {k : Nat} {rest : List Token} (h : Ends k rest) : Ends (k + 1) rest :=
  fun t ht j hj => h t ht j (k.le_succ.trans hj)

theorem ends_closing (k : Nat) (rest : List Token) : Ends k (.op .closing :: rest) := by
  rintro t ⟨⟩ j -
  exact closing_not_operator j

theorem ends_nil (k : Nat) : Ends k [] := by simp [Ends]

theorem not_ends_op (o : Infix) (rest : List Token) : ¬Ends o.level (.op o.op :: rest) := by
  intro h
  have hnone := h _ rfl o.level le_rfl
  rw [opOf?, if_pos (mem_operators o)] at hnone
  cases hnone

theorem Operations.ends {k : Nat} (m : Operations k) {rest : List Token} (h : Ends k rest) :
    Ends (k + 1) (m.tokens ++ rest) := by
  cases m with
  | nil => exact h.succ
  | cons o ho operand more =>
    obtain rfl := ho
    exact loose_op o _

theorem Prefix.op_inj {p q : Prefix} (h : p.op = q.op) : p = q := by
  cases p <;> cases q <;> first | rfl | cases h

theorem Prefix.op_ne_opening (p : Prefix) : p.op ≠ .opening := by
  cases p <;> decide

theorem Infix.op_inj {o o' : Infix} (h : o.op = o'.op) : o = o' := by
  cases o <;> cases o' <;> first | rfl | cases h

mutual

theorem Derivation.eq_of_append {k : Nat} : ∀ {t t' : Derivation k} {rest rest' : List Token},
    Ends k rest → Ends k rest' → t.tokens ++ rest = t'.tokens ++ rest' → t = t' ∧ rest = rest'
  | .number _ _, .number _ _, _, _, _, _, h => by
    simpa [Derivation.tokens] using h
  | .signed p operand, .signed q operand', _, _, hrest, hrest', h => by
    obtain ⟨hp, htail⟩ := List.cons.inj h
    obtain ⟨rfl, rfl⟩ := Derivation.eq_of_append hrest hrest' htail
    exact ⟨by rw [Prefix.op_inj (Token.op.inj hp)], rfl⟩
  | .parentheses inner, .parentheses inner', rest, rest', _, _, h => by
    simp only [Derivation.tokens, List.cons_append, List.append_assoc, List.cons.injEq,
      List.nil_append, true_and] at h
    obtain ⟨rfl, hrest⟩ := Derivation.eq_of_append (ends_closing 0 rest) (ends_closing 0 rest') h
    exact ⟨rfl, (List.cons.inj hrest).2⟩
  | .chain hk first more, .chain _ first' more', rest, rest', hrest, hrest', h => by
    simp only [Derivation.tokens, List.append_assoc] at h
    obtain ⟨rfl, htail⟩ := Derivation.eq_of_append (more.ends hrest) (more'.ends hrest') h
    obtain ⟨rfl, rfl⟩ := Operations.eq_of_append hrest hrest' htail
    exact ⟨rfl, rfl⟩
  | .number _ _, .signed _ _, _, _, _, _, h => by simp [Derivation.tokens] at h
  | .number _ _, .parentheses _, _, _, _, _, h => by simp [Derivation.tokens] at h
  | .signed _ _, .number _ _, _, _, _, _, h => by simp [Derivation.tokens] at h
  | .parentheses _, .number _ _, _, _, _, _, h => by simp [Derivation.tokens] at h
  | .signed p _, .parentheses _, _, _, _, _, h => by
    exact absurd (Token.op.inj (List.cons.inj h).1) p.op_ne_opening
  | .parentheses _, .signed p _, _, _, _, _, h => by
    exact absurd (Token.op.inj (List.cons.inj h).1).symm p.op_ne_opening
  -- At level 6 there is no chain.
  | .chain hk _ _, .number _ _, _, _, _, _, _ | .chain hk _ _, .signed _ _, _, _, _, _, _
  | .chain hk _ _, .parentheses _, _, _, _, _, _ | .number _ _, .chain hk _ _, _, _, _, _, _
  | .signed _ _, .chain hk _ _, _, _, _, _, _ | .parentheses _, .chain hk _ _, _, _, _, _, _ =>
    absurd hk (lt_irrefl 6)

theorem Operations.eq_of_append {k : Nat} : ∀ {m m' : Operations k} {rest rest' : List Token},
    Ends k rest → Ends k rest' → m.tokens ++ rest = m'.tokens ++ rest' → m = m' ∧ rest = rest'
  | .nil, .nil, _, _, _, _, h => ⟨rfl, h⟩
  | .nil, .cons o ho _ _, rest, _, hrest, _, h => by
    obtain rfl := ho
    refine absurd hrest ?_
    rw [show rest = _ from h]
    exact not_ends_op o _
  | .cons o ho _ _, .nil, _, rest', _, hrest', h => by
    obtain rfl := ho
    refine absurd hrest' ?_
    rw [show rest' = _ from h.symm]
    exact not_ends_op o _
  | .cons o ho operand more, .cons o' ho' operand' more', rest, rest', hrest, hrest', h => by
    simp only [Operations.tokens, List.cons_append, List.append_assoc, List.cons.injEq,
      Token.op.injEq] at h
    obtain rfl := Infix.op_inj h.1
    obtain ⟨rfl, htail⟩ := Derivation.eq_of_append (more.ends hrest) (more'.ends hrest') h.2
    obtain ⟨rfl, rfl⟩ := Operations.eq_of_append hrest hrest' htail
    exact ⟨rfl, rfl⟩

end

/-! ### What has a derivation is read -/

/-- What comes of reading up to a rest what has this value. Without a value some divisor is zero. -/
def ending (rest : List Token) : Option Value → Except Problem (Value × List Token)
  | some v => .ok (v, rest)
  | none => .error .divisionByZero

mutual

theorem Derivation.read_eq {k : Nat} : ∀ (t : Derivation k) {d : Nat} {rest : List Token},
    t.nesting ≤ d → Ends k rest → read (tier k d) (t.tokens ++ rest) = ending rest t.value
  | .number text x, d, rest, _, _ => read_number text x rest
  | .signed p operand, d, rest, hd, hrest => by
    obtain ⟨d, rfl⟩ := Nat.exists_eq_succ_of_ne_zero (Nat.ne_zero_of_lt hd)
    have hoperand := operand.read_eq (Nat.le_of_succ_le_succ hd) hrest
    rw [tier_of_le (Nat.le_refl 6)] at hoperand ⊢
    rw [Derivation.tokens, List.cons_append, read_sign (unary_op p), hoperand, Derivation.value]
    cases operand.value <;> rfl
  | .parentheses inner, d, rest, hd, _ => by
    obtain ⟨d, rfl⟩ := Nat.exists_eq_succ_of_ne_zero (Nat.ne_zero_of_lt hd)
    have hinner := inner.read_eq (Nat.le_of_succ_le_succ hd) (ends_closing 0 rest)
    rw [tier_of_le (Nat.le_refl 6), Derivation.tokens, List.cons_append, List.append_assoc,
      read_parentheses]
    change (read (tier 0 d) (inner.tokens ++ .op .closing :: rest) >>= _) = _
    rw [hinner, Derivation.value]
    cases inner.value <;> rfl
  | .chain _ first more, d, rest, hd, hrest => by
    rw [Derivation.tokens, List.append_assoc, read_tier,
      first.read_eq ((Nat.le_max_left _ _).trans hd) (more.ends hrest), Derivation.value]
    cases first.value with
    | none => rfl
    | some a => exact more.read_eq a ((Nat.le_max_right _ _).trans hd) hrest

theorem Operations.read_eq {k : Nat} : ∀ (m : Operations k) (a : Value) {d : Nat}
    {rest : List Token}, m.nesting ≤ d → Ends k rest →
      after k d a (m.tokens ++ rest) = ending rest (m.value a)
  | .nil, a, d, rest, _, hrest => extend_stop _ a fun t ht => hrest t ht k le_rfl
  | .cons o ho operand more, a, d, rest, hd, hrest => by
    have hop : o.op ∈ operators k := ho ▸ mem_operators o
    rw [Operations.tokens, List.cons_append, List.append_assoc, after, extend_op _ _ hop,
      operand.read_eq ((Nat.le_max_left _ _).trans hd) (more.ends hrest), Operations.value]
    -- Both the operand and the quotient may lack a value; what follows is then left unread.
    cases operand.value with
    | none => rfl
    | some b =>
      dsimp only [ending, bind, Except.bind, Option.bind_some]
      rw [binary_op]
      cases o.apply a b with
      | none => rfl
      | some c => exact more.read_eq c ((Nat.le_max_right _ _).trans hd) hrest

end

/-! ### What is read has a derivation -/

/-- Tokens up to a rest have a derivation from a level with this value. -/
def Derives (k d : Nat) (ts : List Token) (v : Value) (rest : List Token) : Prop :=
  ∃ t : Derivation k, t.nesting ≤ d ∧ t.value = some v ∧ ts = t.tokens ++ rest

variable {d k : Nat} {v : Value} {ts rest : List Token}

/-- What stands without an operator between two values: a number, or a sign or parentheses around
what may nest one level less. -/
theorem read_operand_ok (h : read (operand d) ts = .ok (v, rest)) :
    (∃ text x, ts = .number text x :: rest ∧ v = .number x) ∨
    (∃ n p a tail, d = n + 1 ∧ ts = .op (Prefix.op p) :: tail ∧
      read (operand n) tail = .ok (a, rest) ∧ v = p.apply a) ∨
    ∃ n tail, d = n + 1 ∧ ts = .op .opening :: tail ∧
      read (tier 0 n) tail = .ok (v, .op .closing :: rest) := by
  cases ts with
  | nil => cases d <;> cases h
  | cons t tail =>
    cases t with
    | number text x =>
      rw [read_number] at h
      cases h
      exact .inl ⟨text, x, rfl, rfl⟩
    | op o =>
      -- The three signs are read alike, and each takes one level of the nesting.
      have hsign (p : Prefix) (hp : o = p.op) : ∃ n p a tail', d = n + 1 ∧
          Token.op o :: tail = .op (Prefix.op p) :: tail' ∧
          read (operand n) tail' = .ok (a, rest) ∧ v = p.apply a := by
        subst hp
        cases d with
        | zero => cases p <;> cases h
        | succ n =>
          rw [read_sign (unary_op p)] at h
          obtain ⟨found, hfound, h⟩ := ok_of_bind h
          cases h
          exact ⟨n, p, found.1, tail, rfl, rfl, hfound, rfl⟩
      cases o with
      | sub => exact .inr (.inl (hsign .minus rfl))
      | add => exact .inr (.inl (hsign .plus rfl))
      | not => exact .inr (.inl (hsign .not rfl))
      | opening =>
        cases d with
        | zero => cases h
        | succ n =>
          rw [read_parentheses] at h
          obtain ⟨⟨a, left⟩, hfound, h⟩ := ok_of_bind h
          dsimp only at h
          split at h
          · cases h
            exact .inr (.inr ⟨n, tail, rfl, rfl, hfound⟩)
          · cases h
      | _ => cases d <;> cases h

def infixes : List Infix := [.or, .and, .eq, .ne, .lt, .le, .gt, .ge, .add, .sub, .mul, .div]

theorem infix_of_mem {o : Op} (h : o ∈ operators k) :
    ∃ i ∈ infixes, i.op = o ∧ i.level = k := by
  rcases Nat.lt_or_ge k 6 with hlt | hge
  · interval_cases k <;> cases o <;> first | decide | exact absurd h (by decide)
  · rw [operators, List.getElem?_eq_none hge] at h
    cases h

theorem after_ok {a : Value} (h : after k d a ts = .ok (v, rest)) :
    (v = a ∧ rest = ts) ∨
    ∃ (o : Infix) (tail left : List Token) (b c : Value), o.level = k ∧ ts = .op o.op :: tail ∧
      read (tier (k + 1) d) tail = .ok (b, left) ∧ o.apply a b = some c ∧
      after k d c left = .ok (v, rest) := by
  cases ts with
  | nil =>
    rw [after, extend_stop _ a (by simp)] at h
    cases h
    exact .inl ⟨rfl, rfl⟩
  | cons t tail =>
    cases hop : opOf? (operators k) t with
    | none =>
      rw [after, extend_stop _ a (by simpa using hop)] at h
      cases h
      exact .inl ⟨rfl, rfl⟩
    | some o =>
      -- An operator of this level goes on; its operand is read one level tighter.
      obtain ⟨rfl, ho⟩ : t = .op o ∧ o ∈ operators k := by
        cases t with
        | number text x => cases hop
        | op o' =>
          rw [opOf?] at hop
          split_ifs at hop with ho
          cases hop
          exact ⟨rfl, ho⟩
      obtain ⟨i, -, rfl, hlevel⟩ := infix_of_mem ho
      rw [after, extend_op _ _ ho] at h
      obtain ⟨⟨b, left⟩, hread, h⟩ := ok_of_bind h
      obtain ⟨c, hbinary, hrest⟩ := ok_of_bind h
      have happly : i.apply a b = some c := by
        rw [binary_op] at hbinary
        split at hbinary
        · cases hbinary
          assumption
        · cases hbinary
      exact .inr ⟨i, tail, left, b, c, hlevel, rfl, hread, happly, hrest⟩

theorem operations_of_after (hread : ∀ {ts v rest}, read (tier (k + 1) d) ts = .ok (v, rest) →
      Derives (k + 1) d ts v rest) {a : Value} (h : after k d a ts = .ok (v, rest)) :
    ∃ m : Operations k, m.nesting ≤ d ∧ m.value a = some v ∧ ts = m.tokens ++ rest := by
  induction hn : ts.length using Nat.strongRecOn generalizing ts a with
  | ind n ih =>
    rcases after_ok h with ⟨rfl, rfl⟩ | ⟨o, tail, left, b, c, ho, rfl, hoperand, happly, hleft⟩
    · exact ⟨.nil, Nat.zero_le d, rfl, rfl⟩
    · obtain ⟨operand, hnesting, hvalue, rfl⟩ := hread hoperand
      obtain ⟨m, hm, hv, rfl⟩ := ih left.length (by simp [← hn]) hleft rfl
      refine ⟨.cons o ho operand m, max_le hnesting hm, ?_, ?_⟩
      · rw [Operations.value, hvalue, Option.bind_some, happly, Option.bind_some, hv]
      · rw [Operations.tokens, List.cons_append, List.append_assoc]

theorem derives_of_tier (hoperand : ∀ {ts v rest}, read (operand d) ts = .ok (v, rest) →
      Derives 6 d ts v rest) (hk : k ≤ 6) (h : read (tier k d) ts = .ok (v, rest)) :
    Derives k d ts v rest := by
  induction hk using Nat.decreasingInduction generalizing ts v rest with
  | self =>
    rw [tier_of_le (Nat.le_refl 6)] at h
    exact hoperand h
  | of_succ k hk ih =>
    rw [read_tier] at h
    obtain ⟨⟨a, left⟩, hfirst, hafter⟩ := ok_of_bind h
    obtain ⟨first, hnesting, hvalue, rfl⟩ := ih hfirst
    obtain ⟨more, hmore, hv, rfl⟩ := operations_of_after ih hafter
    refine ⟨.chain hk first more, max_le hnesting hmore, ?_, ?_⟩
    · rw [Derivation.value, hvalue, Option.bind_some, hv]
    · rw [Derivation.tokens, List.append_assoc]

theorem derives_of_operand (h : read (operand d) ts = .ok (v, rest)) : Derives 6 d ts v rest := by
  induction d generalizing ts v rest with
  | zero =>
    rcases read_operand_ok h with ⟨text, x, rfl, rfl⟩ | ⟨n, p, a, tail, hn, -⟩ | ⟨n, tail, hn, -⟩
    · exact ⟨.number text x, le_rfl, rfl, rfl⟩
    · cases hn
    · cases hn
  | succ d ih =>
    rcases read_operand_ok h with ⟨text, x, rfl, rfl⟩ | ⟨n, p, a, tail, hn, rfl, htail, rfl⟩ |
      ⟨n, tail, hn, rfl, htail⟩
    · exact ⟨.number text x, Nat.zero_le _, rfl, rfl⟩
    · obtain rfl := Nat.succ.inj hn
      obtain ⟨t, hnesting, hvalue, rfl⟩ := ih htail
      exact ⟨.signed p t, Nat.succ_le_succ hnesting, by rw [Derivation.value, hvalue]; rfl, rfl⟩
    · obtain rfl := Nat.succ.inj hn
      obtain ⟨t, hnesting, hvalue, rfl⟩ := derives_of_tier ih (Nat.zero_le 6) htail
      refine ⟨.parentheses t, Nat.succ_le_succ hnesting, hvalue, ?_⟩
      rw [Derivation.tokens, List.cons_append, List.append_assoc]
      rfl

/-! ### Conditions -/

theorem Derivation.tokens_ne_nil {k : Nat} : ∀ t : Derivation k, t.tokens ≠ []
  | .number _ _ | .signed _ _ | .parentheses _ => by simp [Derivation.tokens]
  | .chain _ first _ => by simp [Derivation.tokens, first.tokens_ne_nil]

theorem parse_ok_iff : parse ts = .ok v ↔
    ∃ t : Derivation 0, t.tokens = ts ∧ t.nesting ≤ maxNesting ∧ t.value = some v := by
  constructor
  · intro h
    have hts : ts ≠ [] := by
      rintro rfl
      cases h
    rw [parse_eq hts] at h
    obtain ⟨⟨a, left⟩, hread, hend⟩ := ok_of_bind h
    obtain ⟨t, hnesting, hvalue, rfl⟩ :=
      derives_of_tier derives_of_operand (Nat.zero_le 6) hread
    cases left with
    | nil =>
      cases hend
      exact ⟨t, (List.append_nil _).symm, hnesting, hvalue⟩
    | cons token left => cases hend
  · rintro ⟨t, rfl, hnesting, hvalue⟩
    have hread := t.read_eq hnesting (ends_nil 0)
    rw [List.append_nil, hvalue] at hread
    rw [parse_eq t.tokens_ne_nil, hread]
    rfl

/-- A list of tokens has at most one derivation. It is read exactly if it has one in which no token
stands inside more than 32 signs and parentheses and no divisor is zero, and then as the value of
the derivation. -/
theorem parse_iff_derivation (ts : List Token) :
    (∀ t t' : Derivation 0, t.tokens = ts → t'.tokens = ts → t = t') ∧
    (∀ v, parse ts = .ok v ↔ ∃ t : Derivation 0,
      t.tokens = ts ∧ t.nesting ≤ 32 ∧ ¬t.HasZeroDivisor ∧ t.value = some v) ∧
    ((∃ problem, parse ts = .error problem) ↔
      ∀ t : Derivation 0, t.tokens = ts → 32 < t.nesting ∨ t.HasZeroDivisor) := by
  refine ⟨fun t t' ht ht' => ?_, fun v => ?_, ?_⟩
  · refine (Derivation.eq_of_append (ends_nil 0) (ends_nil 0) ?_).1
    rw [ht, ht']
  -- A derivation has a value exactly if no divisor is zero, so one of the conditions follows.
  · rw [parse_ok_iff]
    refine exists_congr fun t => and_congr_right fun _ => and_congr_right fun _ => ?_
    rw [← t.value_eq_none]
    constructor
    · intro h
      simp [h]
    · exact And.right
  · constructor
    · rintro ⟨problem, h⟩ t ht
      by_contra hnot
      rw [not_or, not_lt, ← t.value_eq_none] at hnot
      obtain ⟨v, hv⟩ := Option.ne_none_iff_exists'.1 hnot.2
      rw [parse_ok_iff.2 ⟨t, ht, hnot.1, hv⟩] at h
      cases h
    · intro h
      cases hparse : parse ts with
      | error problem => exact ⟨problem, rfl⟩
      | ok v =>
        obtain ⟨t, ht, hnesting, hvalue⟩ := parse_ok_iff.1 hparse
        rcases h t ht with hdeep | hzero
        · exact absurd hnesting (not_le.2 hdeep)
        · rw [← t.value_eq_none, hvalue] at hzero
          cases hzero

end Gameroom.Expression
