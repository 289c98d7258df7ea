import Gameroom.Proofs.Expression.Meaning

/-!
The tokens of any text, one after the other. Which token stands at the start of a text depends only
on the characters that can go on with it, so a text may change behind them.
-/

open Float.Model.UnpackedFloat

namespace Gameroom.Expression
open Token

def goesOn (first : Char) : Char → Bool :=
  if joins first then joins else fun c => c == '=' || c == '&' || c == '|'

def tokens? (s : List Char) : Option (List Token) := (tokenize s).toOption

theorem tokens?_eq_some {s : List Char} {ts : List Token} :
    tokens? s = some ts ↔ tokenize s = .ok ts := by
  rw [tokens?]
  cases tokenize s <;> simp [Except.toOption]

variable {c : Char} {s s' w : List Char} {t : Token} {n : Nat}

/-! ### The number at the start of a text -/

theorem joins_of_isDigit (h : Text.isDigit c) : joins c :=
  joins_of_isWord (Text.isWord_of_isDigit h)

theorem takeWhile_digits (s : List Char) :
    (s.takeWhile joins).takeWhile Text.isDigit = s.takeWhile Text.isDigit := by
  rw [List.takeWhile_takeWhile]
  congr 1
  funext c
  simpa using joins_of_isDigit

theorem numeral_point (s : List Char) :
    numeral ('.' :: s) = if s.takeWhile Text.isDigit = [] then [] else
      '.' :: s.takeWhile Text.isDigit := rfl

theorem numeral_other (hdigit : Text.isDigit c = false) (hpoint : c ≠ '.') (s : List Char) :
    numeral (c :: s) = [] := by
  unfold numeral
  split
  · rename_i heq
    exact absurd (List.cons.inj heq).1 hpoint
  · rw [List.takeWhile_cons_of_neg (by simp [hdigit])]

theorem digits_append (s : List Char) : ∃ whole tail, s = whole ++ tail ∧
    (∀ c ∈ whole, Text.isDigit c) ∧ ∀ c ∈ tail.head?, Text.isDigit c = false := by
  refine ⟨_, _, (List.takeWhile_append_dropWhile (p := Text.isDigit)).symm,
    fun c hc => List.mem_takeWhile_imp hc, fun c hc => ?_⟩
  have hne : s.dropWhile Text.isDigit ≠ [] := by
    intro hnil
    rw [hnil] at hc
    cases hc
  rw [List.head?_eq_some_head hne, Option.mem_some_iff] at hc
  rw [← hc]
  exact List.head_dropWhile_not _ _

theorem fractionOf_takeWhile (s : List Char) : fractionOf (s.takeWhile joins) = fractionOf s := by
  by_cases hpoint : ∃ rest, s = '.' :: rest
  · obtain ⟨rest, rfl⟩ := hpoint
    rw [List.takeWhile_cons_of_pos rfl, fractionOf, fractionOf, takeWhile_digits]
  · have hnone (l : List Char) (h : ∀ rest, l ≠ '.' :: rest) : fractionOf l = [] := by
      unfold fractionOf
      split
      · exact absurd rfl (h _)
      · rfl
    rw [hnone s fun rest h => hpoint ⟨rest, h⟩, hnone]
    intro rest h
    cases s with
    | nil => cases h
    | cons c s =>
      rw [List.takeWhile_cons] at h
      split_ifs at h
      exact hpoint ⟨s, by rw [(List.cons.inj h).1]⟩

theorem numeral_takeWhile (s : List Char) : numeral (s.takeWhile joins) = numeral s := by
  obtain ⟨whole, tail, rfl, hwhole, htail⟩ := digits_append s
  have hjoins : ∀ c ∈ whole, joins c := fun c hc => joins_of_isDigit (hwhole c hc)
  have htail' : ∀ c ∈ (tail.takeWhile joins).head?, Text.isDigit c = false := by
    cases tail with
    | nil => simp
    | cons c tail =>
      rw [List.takeWhile_cons]
      split_ifs
      · exact htail
      · simp
  rw [List.takeWhile_append_of_pos hjoins]
  -- A numeral starts with a digit or a point, and both join, as does all that goes on with it.
  by_cases hne : whole = []
  · subst hne
    cases tail with
    | nil => rfl
    | cons c tail =>
      have hdigit := htail c rfl
      rw [List.nil_append, List.nil_append, List.takeWhile_cons]
      by_cases hpoint : c = '.'
      · subst hpoint
        have hpoint : joins '.' = true := rfl
        rw [if_pos hpoint, numeral_point, numeral_point, takeWhile_digits]
      · rw [numeral_other hdigit hpoint]
        split_ifs
        · exact numeral_other hdigit hpoint _
        · rfl
  · rw [numeral_of_whole hne hwhole htail', numeral_of_whole hne hwhole htail,
      fractionOf_takeWhile]

theorem numeral_starts (s : List Char) : numeral s <+: s := by
  unfold numeral
  split
  · dsimp only
    split_ifs
    · exact List.nil_prefix
    · exact List.cons_prefix_cons.2 ⟨rfl, List.takeWhile_prefix _⟩
  · dsimp only
    split
    · exact List.nil_prefix
    · rename_i hrest _
      have hsplit := List.takeWhile_append_dropWhile (p := Text.isDigit) (l := s)
      rw [hrest] at hsplit
      refine List.IsPrefix.trans ?_ ⟨[], (List.append_nil _).trans hsplit⟩
      exact (List.prefix_append_right_inj _).2
        (List.cons_prefix_cons.2 ⟨rfl, List.takeWhile_prefix _⟩)
    · exact List.takeWhile_prefix _

/-! ### The operator at the start of a text -/

theorem opScan_of_joins (hc : joins c) (s : List Char) : Op.scan? (c :: s) = none := by
  have hnot (first : Char) (h : joins first = false) : c ≠ first := by
    rintro rfl
    rw [hc] at h
    cases h
  unfold Op.scan?
  split
  all_goals first
    | rfl
    | exact absurd (List.cons.inj ‹_ :: _ = _›).1 (hnot _ rfl)

/-- The operators that a third sign may follow: the first character, the operator, and what the
first character is alone. -/
def equalities : List (Char × Op × Option (Op × Nat)) :=
  [('=', .eq, none), ('!', .ne, some (.not, 1))]

theorem opScan_equality {long : Op} {short? : Option (Op × Nat)}
    (h : (c, long, short?) ∈ equalities) (s : List Char) :
    Op.scan? (c :: s) = if s.head? = some '=' then
      some (long, if s.tail.head? = some '=' then 3 else 2) else short? := by
  simp only [equalities, List.mem_cons, Prod.mk.injEq, List.not_mem_nil, or_false] at h
  obtain ⟨rfl, rfl, rfl⟩ | ⟨rfl, rfl, rfl⟩ := h
  all_goals
    rcases s with _ | ⟨a, _ | ⟨b, r⟩⟩
    · rfl
    · by_cases ha : a = '=' <;> simp [Op.scan?, ha]
    · by_cases ha : a = '=' <;> by_cases hb : b = '=' <;> simp [Op.scan?, ha, hb]

/-- The other operators of two characters, with what the first of them is alone. -/
def pairs : List (Char × Char × Op × Option (Op × Nat)) :=
  [('<', '=', .le, some (.lt, 1)), ('>', '=', .ge, some (.gt, 1)), ('&', '&', .and, none),
    ('|', '|', .or, none)]

theorem opScan_pair {second : Char} {long : Op} {short? : Option (Op × Nat)}
    (h : (c, second, long, short?) ∈ pairs) (s : List Char) :
    Op.scan? (c :: s) = if s.head? = some second then some (long, 2) else short? := by
  simp only [pairs, List.mem_cons, Prod.mk.injEq, List.not_mem_nil, or_false] at h
  obtain ⟨rfl, rfl, rfl, rfl⟩ | ⟨rfl, rfl, rfl, rfl⟩ | ⟨rfl, rfl, rfl, rfl⟩ |
    ⟨rfl, rfl, rfl, rfl⟩ := h
  all_goals
    cases s with
    | nil => rfl
    | cons a r =>
      split_ifs with ha
      · cases ha
        rfl
      · rw [List.head?_cons, Option.some_inj] at ha
        simp [Op.scan?, ha]

theorem opScan_other (hc : c ∉ ['=', '!', '<', '>', '&', '|']) (s : List Char) :
    Op.scan? (c :: s) = Op.scan? [c] := by
  simp only [List.mem_cons, List.not_mem_nil, or_false, not_or] at hc
  unfold Op.scan?
  split <;> simp_all

theorem opScan_length {o : Op} (h : Op.scan? s = some (o, n)) : n ≤ s.length := by
  unfold Op.scan? at h
  split at h <;> simp_all <;> omega

theorem opScan_takeWhile (hc : joins c = false) (s : List Char) :
    Op.scan? (c :: s.takeWhile (goesOn c)) = Op.scan? (c :: s) := by
  have hgoes : goesOn c = fun c => c == '=' || c == '&' || c == '|' := by
    rw [goesOn, if_neg (by simp [hc])]
  have hhead {x : Char} (hx : goesOn c x) (s : List Char) :
      (s.takeWhile (goesOn c)).head? = some x ↔ s.head? = some x := by
    cases s with
    | nil => rfl
    | cons a r =>
      rw [List.takeWhile_cons]
      split_ifs with ha
      · rfl
      · refine iff_of_false (by simp) fun heq => ha ?_
        rw [Option.some_inj.1 heq]
        exact hx
  have htail (s : List Char) : s.head? = some '=' →
      ((s.takeWhile (goesOn c)).tail.head? = some '=' ↔ s.tail.head? = some '=') := by
    intro heq
    obtain ⟨r, rfl⟩ := List.head?_eq_some_iff.1 heq
    rw [List.takeWhile_cons_of_pos (by rw [hgoes]; rfl), List.tail_cons, List.tail_cons,
      hhead (by rw [hgoes]; rfl)]
  have hpair {second : Char} {long : Op} {short? : Option (Op × Nat)}
      (h : (c, second, long, short?) ∈ pairs) (hsecond : goesOn c second) :
      Op.scan? (c :: s.takeWhile (goesOn c)) = Op.scan? (c :: s) := by
    rw [opScan_pair h, opScan_pair h s]
    simp only [hhead hsecond]
  have hequal : goesOn c '=' := by rw [hgoes]; rfl
  have hequality {long : Op} {short? : Option (Op × Nat)}
      (h : (c, long, short?) ∈ equalities) :
      Op.scan? (c :: s.takeWhile (goesOn c)) = Op.scan? (c :: s) := by
    rw [opScan_equality h, opScan_equality h s]
    by_cases h : s.head? = some '='
    · simp only [hhead hequal, h, htail s h]
    · simp only [hhead hequal, h, if_false]
  -- Only the characters that start a longer operator look at what stands behind them.
  by_cases hspecial : c ∈ ['=', '!', '<', '>', '&', '|']
  · simp only [List.mem_cons, List.not_mem_nil, or_false] at hspecial
    obtain rfl | rfl | rfl | rfl | rfl | rfl := hspecial
    · exact hequality (.head _)
    · exact hequality (.tail _ (.head _))
    · exact hpair (.head _) hequal
    · exact hpair (.tail _ (.head _)) hequal
    · exact hpair (.tail _ (.tail _ (.head _))) (by rw [hgoes]; rfl)
    · exact hpair (.tail _ (.tail _ (.tail _ (.head _)))) (by rw [hgoes]; rfl)
  · rw [opScan_other hspecial, opScan_other hspecial s]

/-! ### The token at the start of a text -/

theorem goesOn_of_joins (hc : joins c) : goesOn c = joins := if_pos hc

theorem scan_of_joins (hc : joins c) (s : List Char) : scan? (c :: s) =
    match numeral (c :: s) with
    | [] => none
    | text => some (.number text (Token.valueOf text), text.length) := by
  rw [scan?, opScan_of_joins hc]
  rfl

theorem scan_of_not_joins (hc : joins c = false) (s : List Char) :
    scan? (c :: s) = (Op.scan? (c :: s)).map fun found => (.op found.1, found.2) := by
  have hpoint : c ≠ '.' := by
    rintro rfl
    cases hc
  rw [scan?, numeral_other (not_isDigit_of_not_joins hc) hpoint]

theorem scan_takeWhile (c : Char) (s : List Char) :
    scan? (c :: s.takeWhile (goesOn c)) = scan? (c :: s) := by
  cases hc : joins c with
  | true =>
    have hword : c :: s.takeWhile joins = (c :: s).takeWhile joins := by
      rw [List.takeWhile_cons_of_pos hc]
    rw [goesOn_of_joins hc, scan_of_joins hc, scan_of_joins hc, hword, numeral_takeWhile]
  | false => rw [scan_of_not_joins hc, scan_of_not_joins hc, opScan_takeWhile hc]

theorem scan_congr (h : s.takeWhile (goesOn c) = s'.takeWhile (goesOn c)) :
    scan? (c :: s) = scan? (c :: s') := by
  rw [← scan_takeWhile, h, scan_takeWhile]

theorem scan_length (h : scan? s = some (t, n)) : n ≤ s.length := by
  unfold scan? at h
  split at h
  · obtain ⟨found, hfound, heq⟩ := Option.map_eq_some_iff.1 h
    cases heq
    exact opScan_length hfound
  · cases h
    exact (numeral_starts s).length_le

theorem scan_tail (h : scan? (c :: s) = some (t, n + 1)) : ∀ x ∈ s.take n, goesOn c x := by
  rw [← scan_takeWhile] at h
  have hlength := Nat.le_of_succ_le_succ (scan_length h)
  have hstarts : s.take n <+: s.takeWhile (goesOn c) :=
    List.prefix_of_prefix_length_le (List.take_prefix _ _) (List.takeWhile_prefix _)
      ((List.length_take_le _ _).trans hlength)
  exact fun x hx => List.mem_takeWhile_imp (hstarts.subset hx)

theorem not_isBlank_of_goesOn {x : Char} (h : goesOn c x) : Text.isBlank x = false := by
  unfold goesOn at h
  split_ifs at h
  · exact not_isBlank_of_joins h
  · simp only [Bool.or_eq_true, beq_iff_eq] at h
    obtain (rfl | rfl) | rfl := h <;> decide

theorem not_isBlank_of_scan {found : Token × Nat} (h : scan? (c :: s) = some found) :
    Text.isBlank c = false := by
  cases hc : joins c with
  | true => exact not_isBlank_of_joins hc
  | false =>
    rw [scan_of_not_joins hc] at h
    obtain ⟨o, ho, -⟩ := Option.map_eq_some_iff.1 h
    unfold Op.scan? at ho
    split at ho
    all_goals first
      | (obtain rfl := (List.cons.inj ‹_ :: _ = _›).1; decide)
      | cases ho

/-! ### All tokens of a text -/

theorem scanAll_cons (position : Nat) (hs : s ≠ []) :
    (scanAll position s).toOption = (scan? (s.dropWhile Text.isBlank)).bind fun found =>
      (scanAll (position + ((s.takeWhile Text.isBlank).length + found.2))
        (s.drop ((s.takeWhile Text.isBlank).length + found.2))).toOption.map (found.1 :: ·) := by
  cases hscan : scan? (s.dropWhile Text.isBlank) with
  | none =>
    rw [scanAll_stuck hs hscan]
    rfl
  | some found =>
    rw [scanAll_found hs hscan, Option.bind_some]
    cases scanAll (position + _) _ <;> rfl

theorem scanAll_position (s : List Char) (p q : Nat) :
    (scanAll p s).toOption = (scanAll q s).toOption := by
  induction hlength : s.length using Nat.strong_induction_on generalizing s p q with
  | _ length ih =>
    subst hlength
    by_cases hs : s = []
    · subst hs
      rw [scanAll, scanAll]
    · rw [scanAll_cons p hs, scanAll_cons q hs]
      cases hscan : scan? (s.dropWhile Text.isBlank) with
      | none => rfl
      | some found =>
        have hpos := scan?_pos hscan
        have hlength := List.length_pos_iff.2 hs
        rw [Option.bind_some, Option.bind_some, ih _ (by rw [List.length_drop]; omega) _ _ _ rfl]

theorem tokens?_nil : tokens? [] = some [] := by
  rw [tokens?, tokenize, show Text.trimEnd [] = [] from rfl, scanAll]
  rfl

theorem trimEnd_blank (hc : Text.isBlank c) (s : List Char) :
    Text.trimEnd (c :: s) = if Text.trimEnd s = [] then [] else c :: Text.trimEnd s := by
  unfold Text.trimEnd
  rw [List.reverse_cons, List.dropWhile_append]
  cases hrest : s.reverse.dropWhile Text.isBlank with
  | nil => simp [hc]
  | cons x rest => simp

theorem trimEnd_cons (hc : Text.isBlank c = false) (s : List Char) :
    Text.trimEnd (c :: s) = c :: Text.trimEnd s :=
  have hone : ∀ x ∈ [c], Text.isBlank x = false := by simpa using hc
  trimEnd_append hone s

theorem tokens?_blank (hc : Text.isBlank c) (s : List Char) : tokens? (c :: s) = tokens? s := by
  unfold tokens? tokenize
  rw [trimEnd_blank hc]
  split_ifs with hs
  · rw [hs]
  · rw [scanAll_cons 0 (List.cons_ne_nil _ _), scanAll_cons 0 hs, List.dropWhile_cons_of_pos hc,
      List.takeWhile_cons_of_pos hc]
    congr 1
    funext found
    rw [List.length_cons, Nat.add_right_comm, List.drop_succ_cons]
    congr 1
    exact scanAll_position _ _ _

theorem takeWhile_trimEnd {p : Char → Bool} (hp : ∀ x, p x → Text.isBlank x = false)
    (s : List Char) : (Text.trimEnd s).takeWhile p = s.takeWhile p := by
  induction s with
  | nil => rfl
  | cons x s ih =>
    cases hx : Text.isBlank x with
    | false =>
      rw [trimEnd_cons hx, List.takeWhile_cons, List.takeWhile_cons, ih]
    | true =>
      have hnot : ¬p x := fun h => by rw [hp x h] at hx; cases hx
      rw [List.takeWhile_cons_of_neg hnot, trimEnd_blank hx]
      split_ifs
      · rfl
      · rw [List.takeWhile_cons_of_neg hnot]

theorem tokens?_cons (hc : Text.isBlank c = false) (s : List Char) :
    tokens? (c :: s) = (scan? (c :: s)).bind fun found =>
      (tokens? ((c :: s).drop found.2)).map (found.1 :: ·) := by
  have htrim := trimEnd_cons hc s
  have hscan : scan? (c :: Text.trimEnd s) = scan? (c :: s) :=
    scan_congr (takeWhile_trimEnd (fun x hx => not_isBlank_of_goesOn hx) s)
  unfold tokens? tokenize
  rw [htrim, scanAll_cons 0 (List.cons_ne_nil _ _), List.dropWhile_cons_of_neg (by simp [hc]),
    hscan, List.takeWhile_cons_of_neg (by simp [hc])]
  cases hfound : scan? (c :: s) with
  | none => rfl
  | some found =>
    obtain ⟨t, n⟩ := found
    obtain ⟨n, rfl⟩ := Nat.exists_eq_succ_of_ne_zero (scan?_pos hfound).ne'
    have hlength := Nat.le_of_succ_le_succ (scan_length hfound)
    have hdrop : (Text.trimEnd s).drop n = Text.trimEnd (s.drop n) := by
      conv_lhs => rw [← List.take_append_drop n s]
      rw [trimEnd_append fun x hx => not_isBlank_of_goesOn (scan_tail hfound x hx),
        List.drop_left' (List.length_take_of_le hlength)]
    rw [Option.bind_some, Option.bind_some, List.length_nil, Nat.zero_add, Nat.zero_add,
      List.drop_succ_cons, List.drop_succ_cons, hdrop, scanAll_position _ _ 0]

theorem tokens?_append (h : scan? (w ++ s) = some (t, w.length)) :
    tokens? (w ++ s) = (tokens? s).map (t :: ·) := by
  obtain ⟨c, w, rfl⟩ := List.exists_cons_of_length_pos (scan?_pos h)
  rw [List.cons_append, tokens?_cons (not_isBlank_of_scan h), ← List.cons_append, h,
    Option.bind_some, List.drop_left]

theorem Numeral.head_ne_equals (n : Numeral) (s : List Char) : (n.text ++ s).head? ≠ some '=' := by
  rw [List.head?_append_of_ne_nil _ n.text_ne_nil]
  intro h
  have := n.text_plain '=' (List.mem_of_head? h)
  simp at this

theorem tokens?_op {o : Op} (hs : o ≠ .closing → s.head? ≠ some '=') :
    tokens? (o.text.toList ++ s) = (tokens? s).map (.op o :: ·) := tokens?_append (scan_op o hs)

theorem tokens?_numeral (n : Numeral) (hs : Free s) :
    tokens? (n.text ++ s) = (tokens? s).map (.number n.text n.value :: ·) :=
  tokens?_append (scan_numeral n hs)

theorem signed_plain (sign : Sign) (n : Numeral) :
    ∀ c ∈ FloatFormat.signed sign n.text, c = '-' ∨ c.isDigit ∨ c = '.' := by
  intro c hc
  cases sign with
  | positive => exact .inr (n.text_plain c hc)
  | negative => exact (List.mem_cons.1 hc).imp_right (n.text_plain c)

theorem signed_ne_nil (sign : Sign) (n : Numeral) : FloatFormat.signed sign n.text ≠ [] := by
  cases sign with
  | positive => exact n.text_ne_nil
  | negative => exact List.cons_ne_nil _ _

theorem signed_isAllowed (sign : Sign) (n : Numeral) :
    ∀ c ∈ FloatFormat.signed sign n.text, isAllowed c := by
  cases sign with
  | positive => exact n.isAllowed
  | negative => exact List.forall_mem_cons.2 ⟨by decide, n.isAllowed⟩

def signedLexemes (sign : Sign) (n : Numeral) : List Lexeme :=
  match sign with
  | .positive => [.numeral n]
  | .negative => [.op .sub, .numeral n]

theorem tokens?_signed (sign : Sign) (n : Numeral) (hs : Free s) :
    tokens? (FloatFormat.signed sign n.text ++ s) =
      (tokens? s).map ((signedLexemes sign n).map Lexeme.token ++ ·) := by
  cases sign with
  | positive => exact tokens?_numeral n hs
  | negative =>
    have hsub := tokens?_op (o := .sub) (s := n.text ++ s) fun _ => n.head_ne_equals s
    rw [tokens?_numeral n hs, Option.map_map] at hsub
    exact hsub

theorem tokens?_spaces (k : Nat) (s : List Char) :
    tokens? (List.replicate k ' ' ++ s) = tokens? s := by
  induction k with
  | zero => rfl
  | succ k ih => rw [List.replicate_succ, List.cons_append, tokens?_blank (by decide), ih]

end Gameroom.Expression
