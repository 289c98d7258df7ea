import Gameroom.Proofs.Expression.Resolving
import Gameroom.Proofs.Expression.Scanning

/-! Reading tokens, one level of operators after the other. -/

namespace Gameroom.Expression

variable {d k : Nat} {v : Value} {ts rest : List Token}

def read (p : Parser) (ts : List Token) : Except Problem (Value × List Token) :=
  (p ts).map fun found => (found.1, found.2.1)

/-- What the operators of a level make of a value, and what they leave. -/
def extend (level : Level) (p : Parser) (left : Value) (ts : List Token) :
    Except Problem (Value × List Token) :=
  (chainFrom level p left ts).map fun found => (found.1, found.2.1)

theorem read_chain (level : Level) (p : Parser) (ts : List Token) :
    read (chain level p) ts = read p ts >>= fun found => extend level p found.1 found.2 := by
  unfold read chain extend
  cases p ts with
  | error e => rfl
  | ok found =>
    obtain ⟨left, rest, shorter⟩ := found
    dsimp only [Except.map, bind, Except.bind]
    cases chainFrom level p left rest <;> rfl

theorem extend_stop {level : Level} (p : Parser) (left : Value)
    (h : ∀ t ∈ ts.head?, opOf? level t = none) : extend level p left ts = .ok (left, ts) := by
  unfold extend
  cases ts with
  | nil =>
    rw [chainFrom]
    rfl
  | cons t ts =>
    rw [chainFrom]
    split
    · rfl
    · rename_i o ho
      rw [h t rfl] at ho
      cases ho

theorem extend_op {level : Level} (p : Parser) (left : Value) {o : Op} (ho : o ∈ level)
    (after : List Token) : extend level p left (.op o :: after) =
      read p after >>= fun found => Value.binary o left found.1 >>= fun v =>
        extend level p v found.2 := by
  have hop : opOf? level (.op o) = some o := if_pos ho
  unfold extend
  rw [chainFrom]
  split
  · rename_i h
    rw [hop] at h
    cases h
  · rename_i o' h
    rw [hop] at h
    cases h
    unfold read
    cases p after with
    | error e => rfl
    | ok found =>
      obtain ⟨right, rest, shorter⟩ := found
      dsimp only [Except.map, bind, Except.bind]
      cases Value.binary o left right with
      | error e => rfl
      | ok v =>
        dsimp only
        cases chainFrom level p v rest <;> rfl

theorem read_number (text : List Char) (x : Float) (rest : List Token) :
    read (operand d) (.number text x :: rest) = .ok (.number x, rest) := by
  cases d <;> rfl

theorem read_sign {o : Op} {f : Value → Value} (ho : Value.unary? o = some f) (rest : List Token) :
    read (operand (d + 1)) (.op o :: rest) =
      read (operand d) rest >>= fun found => .ok (f found.1, found.2) := by
  unfold read
  conv => lhs; unfold operand
  split
  · rename_i h
    cases h
  · rename_i g depth hg hd
    rw [ho] at hg
    cases hg
    cases hd
    cases operand d rest <;> rfl
  · rename_i h
    rw [ho] at h
    cases h

theorem read_parentheses (ts : List Token) :
    read (operand (d + 1)) (.op .opening :: ts) =
      read (leveled (operand d)) ts >>= fun found =>
        match found.2 with
        | .op .closing :: rest => .ok (found.1, rest)
        | _ => .error .unmatched := by
  unfold read
  conv => lhs; unfold operand
  simp only [Value.unary?, if_true]
  cases leveled (operand d) ts with
  | error e => rfl
  | ok found =>
    obtain ⟨v, rest, shorter⟩ := found
    cases rest with
    | nil => rfl
    | cons t rest =>
      cases t with
      | number text x => rfl
      | op o => cases o <;> rfl

/-! ### Levels -/

def operators (k : Nat) : Level := levels[k]?.getD []

/-- Reads a value with the operators of a level and of all tighter ones. -/
def tier (k d : Nat) : Parser := (levels.drop k).foldr chain (operand d)

/-- What the operators of a level make of a value. -/
def after (k d : Nat) : Value → List Token → Except Problem (Value × List Token) :=
  extend (operators k) (tier (k + 1) d)

/-- A text does not go on with an operator that is tighter than a level. -/
def Loose (k : Nat) (rest : List Token) : Prop :=
  ∀ t ∈ rest.head?, ∀ j, k < j → opOf? (operators j) t = none

theorem Loose.mono {j : Nat} (h : Loose k rest) (hkj : k ≤ j) : Loose j rest :=
  fun t ht i hi => h t ht i (hkj.trans_lt hi)

theorem Loose.after_eq {j : Nat} (h : Loose k rest) (hkj : k < j) (v : Value) :
    after j d v rest = .ok (v, rest) :=
  extend_stop _ v fun t ht => h t ht j hkj

theorem tier_of_le (h : levels.length ≤ k) : tier k d = operand d := by
  rw [tier, List.drop_eq_nil_of_le h]
  rfl

theorem read_tier (k d : Nat) (ts : List Token) :
    read (tier k d) ts = read (tier (k + 1) d) ts >>= fun found => after k d found.1 found.2 := by
  rcases Nat.lt_or_ge k levels.length with h | h
  · have htier : tier k d = chain (operators k) (tier (k + 1) d) := by
      rw [tier, List.drop_eq_getElem_cons h, operators, List.getElem?_eq_getElem h]
      rfl
    rw [htier, read_chain]
    rfl
  · have hoperators : operators k = [] := by
      rw [operators, List.getElem?_eq_none h]
      rfl
    have hafter (v : Value) (rest : List Token) : after k d v rest = .ok (v, rest) := by
      refine extend_stop _ v fun t _ => ?_
      rw [hoperators]
      cases t <;> rfl
    rw [tier_of_le h, tier_of_le (h.trans k.le_succ)]
    simp only [hafter]
    cases read (operand d) ts <;> rfl

variable {e : Except Problem Value}

theorem read_looser {j : Nat} (hkj : k ≤ j) (hrest : Loose k rest)
    (h : read (tier j d) ts = e >>= fun v => after j d v rest) :
    read (tier k d) ts = e >>= fun v => after k d v rest := by
  obtain ⟨m, rfl⟩ := Nat.exists_eq_add_of_le hkj
  induction m with
  | zero => exact h
  | succ m ih =>
    -- At the tighter level the rest stops at once, and the looser one goes on with it.
    refine ih (Nat.le_add_right k m) ?_
    have hstop (v : Value) := hrest.after_eq (d := d) (show k < k + (m + 1) by omega) v
    rw [read_tier, Nat.add_assoc, h]
    simp only [hstop]
    cases e <;> rfl

theorem read_operand (hrest : Loose k rest)
    (h : read (operand d) ts = e >>= fun v => .ok (v, rest)) :
    read (tier k d) ts = e >>= fun v => after k d v rest := by
  have hstop (v : Value) := hrest.after_eq (d := d) (show k < k + 6 by omega) v
  refine read_looser (Nat.le_add_right k 6) hrest ?_
  rw [tier_of_le (Nat.le_add_left 6 k), h]
  simp only [hstop]

theorem loose_op (o : Infix) (rest : List Token) : Loose o.level (.op o.op :: rest) := by
  intro t ht j hj
  obtain rfl := Option.some_inj.1 ht
  rcases Nat.lt_or_ge j 6 with hlt | hge
  · interval_cases j <;> cases o <;> first | rfl | (exfalso; revert hj; decide)
  · rw [operators, List.getElem?_eq_none hge]
    rfl

theorem loose_tight (rest : List Token) : Loose 5 rest := by
  intro t _ j hj
  have hoperators : operators j = [] := by
    rw [operators, List.getElem?_eq_none hj]
    rfl
  rw [hoperators]
  cases t <;> rfl

theorem closing_not_operator (j : Nat) : opOf? (operators j) (.op .closing) = none := by
  refine if_neg ?_
  rcases Nat.lt_or_ge j 6 with hlt | hge
  · interval_cases j <;> decide
  · rw [operators, List.getElem?_eq_none hge]
    exact List.not_mem_nil

theorem mem_operators (o : Infix) : o.op ∈ operators o.level := by
  cases o <;> decide

/-! ### Trees -/

/-- The value of a tree; where it has none, a quotient by zero is to blame. -/
def Tree.outcome (env : Environment) (t : Tree) : Except Problem Value :=
  match t.value env with
  | some v => .ok v
  | none => .error .divisionByZero

section
variable {env : Environment}

theorem outcome_signed (p : Prefix) (t : Tree) :
    (Tree.signed p t).outcome env = t.outcome env >>= fun v => .ok (p.apply v) := by
  unfold Tree.outcome
  rw [Tree.value]
  cases t.value env <;> rfl

theorem binary_op (o : Infix) (a b : Value) : Value.binary o.op a b =
    match o.apply a b with
    | some v => .ok v
    | none => .error .divisionByZero := by
  cases o with
  | div =>
    rw [Infix.op, Infix.apply, Value.binary]
    split_ifs <;> rfl
  | _ => rfl

theorem outcome_joined (o : Infix) (l r : Tree) : (Tree.joined o l r).outcome env =
    l.outcome env >>= fun a => r.outcome env >>= fun b => Value.binary o.op a b := by
  unfold Tree.outcome
  rw [Tree.value]
  cases l.value env with
  | none => rfl
  | some a =>
    cases r.value env with
    | none => rfl
    | some b => exact (binary_op o a b).symm

end

/-! ### Texts of trees -/

theorem read_spelled {value : Json} (h : IsPlain value) (rest : List Token) :
    read (operand (d + 1)) ((spelled value).map Lexeme.token ++ rest) =
      .ok (.number (worth value), rest) := by
  match value, h with
  | .bool b, _ =>
    change read (operand (d + 1)) (.number _ (Numeral.ofNat (if b then 1 else 0)).value :: rest) = _
    rw [read_number, Numeral.value_ofNat]
    cases b <;> rfl
  | .number (.int i), h =>
    have hsmall : i.natAbs < 10 ^ 15 := h
    rw [spelled, worth]
    split_ifs with hi
    · have hneg : -((i.natAbs : Nat) : Int) = i := by omega
      change read (operand (d + 1))
        (.op .sub :: .number _ (Numeral.ofNat i.natAbs).value :: rest) = _
      rw [read_sign (f := fun a => .number (-a.toFloat)) rfl, read_number, Numeral.value_ofNat]
      -- A number below zero is read as a sign and a number.
      have hfloat := Grid.floatOfInt_neg (n := i.natAbs) (by omega) (by
        rw [Int.natAbs_natCast]
        omega)
      rw [hneg] at hfloat
      rw [hfloat]
      rfl
    · have hpos : ((i.natAbs : Nat) : Int) = i := by omega
      change read (operand (d + 1)) (.number _ (Numeral.ofNat i.natAbs).value :: rest) = _
      rw [read_number, Numeral.value_ofNat, hpos]

/-- The tokens of lexemes once all names are replaced. -/
def tokens (context : Context) (ls : List Lexeme) : List Token :=
  (ls.flatMap (Lexeme.resolved context.names)).map Lexeme.token

section
variable {context : Context}

theorem tokens_append (ls rs : List Lexeme) :
    tokens context (ls ++ rs) = tokens context ls ++ tokens context rs := by
  rw [tokens, List.flatMap_append, List.map_append]
  rfl

theorem tokens_op (o : Op) (ls : List Lexeme) :
    tokens context (.op o :: ls) = .op o :: tokens context ls := rfl

theorem tokens_word {w : String} {value : Json} (h : Table.get? context.names w = some value) :
    tokens context [.word w] = (spelled value).map Lexeme.token := by
  rw [tokens, List.flatMap_singleton, Lexeme.resolved, h]

theorem environment_name {x : String} {value : Json} (h : context.vars.get? x = some value) :
    context.environment.name x = worth value := by
  change ((context.vars.get? x).map worth).getD 0 = _
  rw [h]
  rfl

theorem environment_property {entity key : String} {value : Json}
    (h : context.property? entity key = some value) :
    context.environment.property entity key = worth value := by
  change ((context.property? entity key).map worth).getD 0 = _
  rw [h]
  rfl

theorem unary_op (p : Prefix) : Value.unary? p.op = some p.apply := by
  cases p <;> rfl

theorem read_printed (hc : context.Plain) {t : Tree} {n : Nat} {ls : List Lexeme}
    (hp : t.Prints k n ls) (ht : t.Closed context) (hd : n < d) (hrest : Loose k rest) :
    read (tier k d) (tokens context ls ++ rest) =
      t.outcome context.environment >>= fun v => after k d v rest := by
  induction hp generalizing d rest with
  | literal n level =>
    refine read_operand hrest ?_
    exact read_number _ _ _
  | name x level =>
    obtain ⟨value, hvalue⟩ := Option.isSome_iff_exists.1 ht
    obtain ⟨d, rfl⟩ := Nat.exists_eq_succ_of_ne_zero hd.ne'
    refine read_operand hrest ?_
    rw [tokens_word (hc.get?_name hvalue), read_spelled (hc.vars _ (Table.mem_of_get? hvalue)).2,
      Tree.outcome, Tree.value, environment_name hvalue]
    rfl
  | property entity key level =>
    obtain ⟨value, hvalue⟩ := Option.isSome_iff_exists.1 ht
    obtain ⟨d, rfl⟩ := Nat.exists_eq_succ_of_ne_zero hd.ne'
    have hname := hc.get?_property hvalue
    refine read_operand hrest ?_
    rw [tokens_word hname, read_spelled (hc.names _ (Table.mem_of_get? hname)).2, Tree.outcome,
      Tree.value, environment_property hvalue]
    rfl
  | @signed p t n ls level h ih =>
    obtain ⟨d, rfl⟩ := Nat.exists_eq_succ_of_ne_zero (Nat.ne_zero_of_lt hd)
    have htier : operand d = tier 6 d := (tier_of_le (Nat.le_refl 6)).symm
    have hstop (v : Value) := (loose_tight rest).after_eq (d := d) (Nat.lt_add_one 5) v
    refine read_operand hrest ?_
    rw [tokens_op, List.cons_append, read_sign (unary_op p), htier,
      ih ht (Nat.lt_of_succ_lt_succ hd) ((loose_tight rest).mono (Nat.le_succ 5)), outcome_signed]
    simp only [hstop]
    cases t.outcome context.environment <;> rfl
  | @joined o l r level n m ls rs hl hr hlevel ihl ihr =>
    obtain ⟨htl, htr⟩ := ht
    have hstop (v : Value) := hrest.after_eq (d := d) (Nat.lt_succ_of_le hlevel) v
    -- The right side stands at the next level, so the operators that follow stay for this one.
    have hop (a : Value) : after o.level d a (.op o.op :: (tokens context rs ++ rest)) =
        r.outcome context.environment >>= fun b => Value.binary o.op a b >>= fun v =>
          after o.level d v rest := by
      rw [after, extend_op _ _ (mem_operators o), ihr htr ((Nat.le_max_right n m).trans_lt hd)
        (hrest.mono (hlevel.trans (Nat.le_succ _)))]
      simp only [hstop]
      cases r.outcome context.environment <;> rfl
    refine read_looser hlevel hrest ?_
    rw [tokens_append, tokens_op, List.append_assoc, List.cons_append,
      ihl htl ((Nat.le_max_left n m).trans_lt hd) (loose_op o _), outcome_joined]
    simp only [hop]
    cases l.outcome context.environment with
    | error e => rfl
    | ok a => cases r.outcome context.environment <;> rfl
  | @parentheses t n ls level h ih =>
    obtain ⟨d, rfl⟩ := Nat.exists_eq_succ_of_ne_zero (Nat.ne_zero_of_lt hd)
    have htier : leveled (operand d) = tier 0 d := rfl
    have hclosing (j : Nat) :
        ∀ t ∈ (Token.op .closing :: rest).head?, opOf? (operators j) t = none := by
      rintro t ⟨⟩
      exact closing_not_operator j
    have hstop (v : Value) : after 0 d v (.op .closing :: rest) = .ok (v, .op .closing :: rest) :=
      extend_stop _ v (hclosing 0)
    refine read_operand hrest ?_
    rw [tokens_op, tokens_append, List.cons_append, List.append_assoc, read_parentheses, htier]
    change (read (tier 0 d) (tokens context ls ++ .op .closing :: rest) >>= _) = _
    rw [ih ht (Nat.lt_of_succ_lt_succ hd) fun t ht j _ => hclosing j t ht]
    simp only [hstop]
    cases t.outcome context.environment <;> rfl

end

end Gameroom.Expression
