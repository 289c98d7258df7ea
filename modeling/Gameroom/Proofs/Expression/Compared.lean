import Gameroom.Proofs.Expression.Lexing
import Gameroom.Proofs.Expression.Reached
import Gameroom.Proofs.Expression.Roundtrip

/-!
A name compared with a decimal of either sign, the operator in any spelling. The other names of the
context are of no matter, and their values may be any that can be written.
-/

open Float.Model.UnpackedFloat

namespace Gameroom.Expression
open Token

def comparators : List (String × Infix) := [(">", .gt), (">=", .ge), ("<", .lt), ("<=", .le),
  ("==", .eq), ("===", .eq), ("!=", .ne), ("!==", .ne)]

variable {names : List (String × Json)} {name : String} {value : Json} {l s : List Char}
  {ws : List (List Char)} {op : String} {o : Infix} {n : Numeral} {i : Int}

/-! ### One name among others -/

namespace Pieces

theorem replace_absent (hname : Nameable name.toList) (l : List Char) (h : Pieces ws)
    (habsent : name.toList ∉ ws) : replace name.toList l ws.flatten = ws.flatten := by
  have hsame : ws.map (fun w => if w = name.toList then l else w) = ws := by
    refine (List.map_congr_left fun w hw => if_neg ?_).trans (List.map_id ws)
    rintro rfl
    exact habsent hw
  rw [replace, h.replaceFrom hname (Bool.false_ne_true.elim ·), hsame]

theorem replaceAll_absent (hnames : Writable names) (h : Pieces ws)
    (habsent : ∀ e ∈ names, e.1.toList ∉ ws) : replaceAll names ws.flatten = .ok ws.flatten := by
  induction names with
  | nil => rfl
  | cons first rest ih =>
    obtain ⟨⟨hname, l, hl⟩, hrest⟩ := List.forall_mem_cons.1 hnames
    rw [List.forall_mem_cons] at habsent
    simp only [replaceAll, hl, h.replace_absent hname l habsent.1]
    exact ih hrest habsent.2

theorem replaceAll_only (hnames : Writable names) (hvalue : Table.get? names name = some value)
    (hl : literal value = .ok l) (hshows : Shows l) (h : Pieces ws)
    (honly : ∀ w ∈ ws, Nameable w → w = name.toList) :
    replaceAll names ws.flatten =
      .ok (ws.map fun w => if w = name.toList then l else w).flatten := by
  induction names with
  | nil => cases hvalue
  | cons first rest ih =>
    obtain ⟨other, found⟩ := first
    obtain ⟨⟨hname, l', hl'⟩, hrest⟩ := List.forall_mem_cons.1 hnames
    rw [Table.get?] at hvalue
    split_ifs at hvalue with hother
    · cases hvalue
      subst hother
      simp only [replaceAll, hl, replace, h.replaceFrom hname (Bool.false_ne_true.elim ·)]
      refine (h.replaced hname hshows).replaceAll_absent hrest fun e he hmem => ?_
      have hlater := (hrest e he).1
      obtain ⟨w, hw, heq⟩ := List.mem_map.1 hmem
      split_ifs at heq with hsame
      · exact hlater.ne_shows hshows heq
      · exact hsame (honly w hw (heq ▸ hlater))
    · have habsent : other.toList ∉ ws := fun hmem =>
        hother (String.toList_injective (honly _ hmem hname))
      simp only [replaceAll, hl', h.replace_absent hname l' habsent]
      exact ih hrest hvalue

end Pieces

def separated (name signs : List Char) (n : Numeral) : List (List Char) :=
  name :: (signs.map ([·]) ++ [n.text])

theorem flatten_separated (name signs : List Char) (n : Numeral) :
    (separated name signs n).flatten = name ++ (signs ++ n.text) := by
  have hsigns : (signs.map ([·])).flatten = signs := by
    induction signs with
    | nil => rfl
    | cons c rest ih => rw [List.map_cons, List.flatten_cons, ih]; rfl
  rw [separated, List.flatten_cons, List.flatten_append, hsigns, List.flatten_singleton]

section
variable {signs : List Char}

theorem isChain_signs (hsigns : ∀ c ∈ signs, joins c = false) (w : List Char) :
    (signs.map ([·]) ++ [w]).IsChain Apart := by
  induction signs with
  | nil => exact .singleton w
  | cons first rest ih =>
    obtain ⟨hfirst, hrest⟩ := List.forall_mem_cons.1 hsigns
    refine List.isChain_cons.2 ⟨fun _ _ c hc hjoins => ?_, ih hrest⟩
    obtain rfl : first = c := Option.some.inj hc
    rw [hfirst] at hjoins
    cases hjoins

theorem pieces_separated (hname : Nameable name.toList) (hne : signs ≠ [])
    (hsigns : ∀ c ∈ signs, joins c = false) (n : Numeral) :
    Pieces (separated name.toList signs n) := by
  have hreplaceable := hname.replaceable
  constructor
  · intro w hw
    rw [separated, List.mem_cons, List.mem_append, List.mem_singleton] at hw
    obtain rfl | hw | rfl := hw
    · exact .word hreplaceable.nonempty hreplaceable.joins
    · obtain ⟨c, hc, rfl⟩ := List.mem_map.1 hw
      exact .sign (hsigns c hc)
    · exact .word n.text_ne_nil n.text_joins
  · obtain ⟨first, rest, rfl⟩ := List.exists_cons_of_ne_nil hne
    rw [separated, List.isChain_cons]
    refine ⟨fun w hw _ _ _ c hc => ?_, isChain_signs hsigns n.text⟩
    cases hw
    cases hc
    exact hsigns first List.mem_cons_self

theorem not_nameable_sign {c : Char} (hc : joins c = false) : ¬Nameable [c] := by
  intro h
  rw [h.replaceable.joins c List.mem_cons_self] at hc
  cases hc

theorem replaceAll_separated (hnames : Writable names)
    (hvalue : Table.get? names name = some value) (hl : literal value = .ok l) (hshows : Shows l)
    (hne : signs ≠ []) (hsigns : ∀ c ∈ signs, joins c = false) (n : Numeral) :
    replaceAll names (name.toList ++ (signs ++ n.text)) = .ok (l ++ (signs ++ n.text)) := by
  have hname := (hnames _ (Table.mem_of_get? hvalue)).1
  have hdecimal : n.text ≠ name.toList := hname.ne_numeral n
  have hsign (c : Char) (hc : c ∈ signs) : [c] ≠ name.toList := fun heq =>
    not_nameable_sign (hsigns c hc) (heq ▸ hname)
  -- No sign and no decimal is a name, so one name is all there is to replace.
  have honly : ∀ w ∈ separated name.toList signs n, Nameable w → w = name.toList := by
    intro w hw hnameable
    rw [separated, List.mem_cons, List.mem_append, List.mem_singleton] at hw
    obtain rfl | hw | rfl := hw
    · rfl
    · obtain ⟨c, hc, rfl⟩ := List.mem_map.1 hw
      exact absurd hnameable (not_nameable_sign (hsigns c hc))
    · exact absurd rfl (hnameable.ne_numeral n)
  have hreplaced := (pieces_separated hname hne hsigns n).replaceAll_only hnames hvalue hl hshows
    honly
  have hparts : (separated name.toList signs n).map (fun w => if w = name.toList then l else w) =
      separated l signs n := by
    rw [separated, List.map_cons, if_pos rfl, List.map_append, List.map_map, List.map_singleton,
      if_neg hdecimal, separated]
    congr 2
    exact List.map_congr_left fun c hc => if_neg (hsign c hc)
  rw [hparts, flatten_separated, flatten_separated] at hreplaced
  exact hreplaced

end

/-! ### The tokens of a comparison -/

theorem scan_comparator (hop : (op, o) ∈ comparators) (hs : s.head? ≠ some '=') :
    scan? (op.toList ++ s) = some (.op o.op, op.toList.length) := by
  have hplain (h : op = o.op.text) : scan? (op.toList ++ s) = some (.op o.op, op.toList.length) :=
    h ▸ scan_op o.op fun _ => hs
  have hstrict {c : Char} (hc : c = '=' ∨ c = '!') : scan? (c :: '=' :: '=' :: s) =
      some (.op (if c = '=' then .eq else .ne), 3) := by
    obtain rfl | rfl := hc <;> rw [scan_of_not_joins rfl] <;> rfl
  simp only [comparators, List.mem_cons, Prod.mk.injEq, List.not_mem_nil, or_false] at hop
  obtain ⟨rfl, rfl⟩ | ⟨rfl, rfl⟩ | ⟨rfl, rfl⟩ | ⟨rfl, rfl⟩ | ⟨rfl, rfl⟩ | ⟨rfl, rfl⟩ |
    ⟨rfl, rfl⟩ | ⟨rfl, rfl⟩ := hop
  case inr.inr.inr.inr.inr.inl => exact hstrict (.inl rfl)
  case inr.inr.inr.inr.inr.inr.inr => exact hstrict (.inr rfl)
  all_goals exact hplain rfl

/-! ### The value of a comparison -/

def signedTree (sign : Sign) (n : Numeral) : Tree :=
  match sign with
  | .positive => .literal n
  | .negative => .signed .minus (.literal n)

theorem prints_signed (sign : Sign) (n : Numeral) (level : Nat) :
    ∃ depth ≤ 1, (signedTree sign n).Prints level depth (signedLexemes sign n) := by
  cases sign with
  | positive => exact ⟨0, by omega, .literal n level⟩
  | negative => exact ⟨1, le_rfl, .signed .minus level (.literal n 6)⟩

theorem closed_signed (context : Context) (sign : Sign) (n : Numeral) :
    (signedTree sign n).Closed context := by
  cases sign <;> trivial

theorem value_signed (env : Environment) (sign : Sign) (n : Numeral) :
    (signedTree sign n).value env = some (.number (signedFloat sign n.value)) := by
  cases sign <;> rfl

theorem allowed_of_all (hne : s ≠ []) (h : ∀ c ∈ s, isAllowed c) : allowed s := by
  have hlast : s.getLast? ≠ some '\n' := by
    intro hlast
    exact absurd (h '\n' (List.mem_of_getLast? hlast)) (by decide)
  rw [allowed, if_neg hlast]
  simp [hne, List.all_eq_true.2 h]

/-- The signs between the two sides of a comparison. -/
def between (op : String) (k : Nat) : List Char := ' ' :: (op.toList ++ List.replicate k ' ')

theorem comparator_signs (hop : (op, o) ∈ comparators) :
    ∀ c ∈ op.toList, c ∈ ['>', '<', '=', '!'] := by
  have hall : ∀ e ∈ comparators, ∀ c ∈ e.1.toList, c ∈ ['>', '<', '=', '!'] := by simp [comparators]
  exact hall _ hop

theorem mem_between (hop : (op, o) ∈ comparators) {k : Nat} {c : Char} (hc : c ∈ between op k) :
    c ∈ [' ', '>', '<', '=', '!'] := by
  rw [between, List.mem_cons, List.mem_append] at hc
  obtain rfl | hc | hc := hc
  · exact List.mem_cons_self
  · exact List.mem_cons_of_mem _ (comparator_signs hop c hc)
  · rw [List.eq_of_mem_replicate hc]
    exact List.mem_cons_self

theorem between_not_joins (hop : (op, o) ∈ comparators) (k : Nat) :
    ∀ c ∈ between op k, joins c = false := by
  have hall : [' ', '>', '<', '=', '!'].all (!joins ·) := rfl
  intro c hc
  simpa using List.all_eq_true.1 hall c (mem_between hop hc)

theorem between_isAllowed (hop : (op, o) ∈ comparators) (k : Nat) :
    ∀ c ∈ between op k, isAllowed c := by
  have hall : [' ', '>', '<', '=', '!'].all isAllowed := rfl
  exact fun c hc => List.all_eq_true.1 hall c (mem_between hop hc)

theorem valueOf_compared (hop : (op, o) ∈ comparators) (k : Nat) (sign sign' : Sign)
    (m n : Numeral) :
    valueOf (FloatFormat.signed sign m.text ++ (between op k ++ FloatFormat.signed sign' n.text)) =
      Value.binary o.op (.number (signedFloat sign m.value))
        (.number (signedFloat sign' n.value)) := by
  have hplain : Context.Plain ⟨[], []⟩ := ⟨by simp, by simp⟩
  obtain ⟨d, hd, hleft⟩ := prints_signed sign m o.level
  obtain ⟨d', hd', hright⟩ := prints_signed sign' n (o.level + 1)
  have hprints := Tree.Prints.joined hleft hright (Nat.zero_le o.level)
  -- The text has the tokens of a printed tree, which is read as its value.
  have hbare : tokens ⟨[], []⟩ (signedLexemes sign m ++ .op o.op :: signedLexemes sign' n) =
      (signedLexemes sign m ++ .op o.op :: signedLexemes sign' n).map Lexeme.token := by
    cases sign <;> cases sign' <;> rfl
  have hclosed : (Tree.joined o (signedTree sign m) (signedTree sign' n)).Closed ⟨[], []⟩ :=
    ⟨closed_signed _ sign m, closed_signed _ sign' n⟩
  have hparse := parse_tokens hplain hclosed hprints ((max_le hd hd').trans_lt (by decide))
  have hspace : Free (between op k ++ FloatFormat.signed sign' n.text) := by
    rintro c ⟨⟩
    exact space_not_joins
  have hright : tokens? (FloatFormat.signed sign' n.text) =
      some ((signedLexemes sign' n).map Lexeme.token) := by
    have hlast := tokens?_signed sign' n (s := []) (by simp [Free])
    rw [tokens?_nil, List.append_nil] at hlast
    simpa using hlast
  have hnext : (List.replicate k ' ' ++ FloatFormat.signed sign' n.text).head? ≠ some '=' := by
    intro h
    rcases List.mem_append.1 (List.mem_of_head? h) with h | h
    · cases List.eq_of_mem_replicate h
    · have := signed_plain sign' n '=' h
      simp at this
  have htokens : tokens? (FloatFormat.signed sign m.text ++
      (between op k ++ FloatFormat.signed sign' n.text)) =
        some ((signedLexemes sign m ++ .op o.op :: signedLexemes sign' n).map Lexeme.token) := by
    rw [tokens?_signed sign m hspace, between, List.cons_append, List.append_assoc,
      tokens?_blank (by decide), tokens?_append (scan_comparator hop hnext), tokens?_spaces, hright,
      List.map_append, List.map_cons]
    rfl
  rw [valueOf, tokens?_eq_some.1 htokens, ← hbare]
  dsimp only
  rw [hparse, Tree.outcome, Tree.value, value_signed, value_signed, binary_op]
  rfl

theorem signedFloat_signOf (hi : i.natAbs < 2 ^ 53) :
    signedFloat (signOf i) (Numeral.ofNat i.natAbs).value = floatOfInt i := by
  rw [signOf, Numeral.value_ofNat]
  split_ifs with hneg
  · have hfloat := Grid.floatOfInt_neg (n := i.natAbs) (by omega) (by rwa [Int.natAbs_natCast])
    rw [signedFloat, ← hfloat]
    congr 1
    omega
  · rw [signedFloat]
    congr 1
    omega

theorem exists_minus (sign : Sign) (n : Numeral) : ∃ minus, (∀ c ∈ minus, joins c = false) ∧
    FloatFormat.signed sign n.text = minus ++ n.text := by
  cases sign with
  | positive => exact ⟨[], by simp, rfl⟩
  | negative => exact ⟨['-'], by simp [minus_not_joins], rfl⟩

theorem evaluate_whole_compared {context : Context} (hnames : Writable context.names)
    (hvalue : Table.get? context.names name = some (.number (.int i))) (hi : i.natAbs < 10 ^ 15)
    (hop : (op, o) ∈ comparators) (k : Nat) (sign : Sign) (n : Numeral) :
    evaluate context (name.toList ++ (between op k ++ FloatFormat.signed sign n.text)) =
      .ok (Value.binary o.op (.number (floatOfInt i)) (.number (signedFloat sign n.value))) := by
  have hliteral : literal (.number (.int i)) =
      .ok (FloatFormat.signed (signOf i) (Numeral.ofNat i.natAbs).text) := by
    rw [literal, numberLiteral, if_pos (below_plainLimit.2 hi), intChars_eq]
  have hshows := shows_intChars i
  rw [intChars_eq] at hshows
  obtain ⟨minus, hminus, htext⟩ := exists_minus sign n
  have hsigns : ∀ c ∈ between op k ++ minus, joins c = false := fun c hc =>
    (List.mem_append.1 hc).elim (between_not_joins hop k c) (hminus c)
  have hne : between op k ++ minus ≠ [] := by simp [between]
  have hreplaced := replaceAll_separated hnames hvalue hliteral hshows hne hsigns n
  rw [List.append_assoc, ← htext] at hreplaced
  have hname := (hnames _ (Table.mem_of_get? hvalue)).1.replaceable
  have hblank (rest : List Char) : (name.toList ++ rest).all Text.isBlank = false := by
    obtain ⟨c, hc⟩ := List.exists_mem_of_ne_nil _ hname.nonempty
    rw [List.all_eq_false]
    exact ⟨c, List.mem_append_left _ hc, by simp [not_isBlank_of_joins (hname.joins c hc)]⟩
  -- After the replacement all characters are those of a condition.
  have hallowed : allowed (FloatFormat.signed (signOf i) (Numeral.ofNat i.natAbs).text ++
      (between op k ++ FloatFormat.signed sign n.text)) := by
    refine allowed_of_all (by simp [between]) fun c hc => ?_
    rw [List.mem_append, List.mem_append] at hc
    obtain hc | hc | hc := hc
    · exact signed_isAllowed _ _ c hc
    · exact between_isAllowed hop k c hc
    · exact signed_isAllowed _ _ c hc
  have hvalue := valueOf_compared hop k (signOf i) sign (Numeral.ofNat i.natAbs) n
  rw [signedFloat_signOf (hi.trans (by decide))] at hvalue
  rw [evaluate_eq (hblank _) hreplaced, if_pos hallowed, hvalue]

end Gameroom.Expression
