import Gameroom.Proofs.Expression.Replacing

/-! The tokens of a text of lexemes. -/

namespace Gameroom.Expression

/-- The token of a lexeme. A name has none of its own and counts as an operator. -/
def Lexeme.token : Lexeme → Token
  | numeral n => .number n.text n.value
  | word _ => .op .or
  | op o => .op o

def Bare (ls : List Lexeme) : Prop := ∀ w, .word w ∉ ls

theorem Bare.tail {l : Lexeme} {ls : List Lexeme} (h : Bare (l :: ls)) : Bare ls :=
  fun w hw => h w (List.mem_cons_of_mem _ hw)

/-! ### One token -/

theorem not_isDigit_of_not_joins {c : Char} (h : joins c = false) : Text.isDigit c = false := by
  by_contra hdigit
  rw [Bool.not_eq_false] at hdigit
  rw [joins, Text.isWord_of_isDigit hdigit] at h
  cases h

theorem Free.not_isDigit {s : List Char} (h : Free s) : ∀ c ∈ s.head?, Text.isDigit c = false :=
  fun c hc => not_isDigit_of_not_joins (h c hc)

theorem numeral_of_point {fraction s : List Char} (hne : fraction ≠ [])
    (hdigits : ∀ c ∈ fraction, Text.isDigit c) (hs : Free s) :
    Token.numeral ('.' :: fraction ++ s) = '.' :: fraction := by
  rw [List.cons_append, Token.numeral, Text.takeWhile_run hdigits hs.not_isDigit]
  exact if_neg hne

def fractionOf : List Char → List Char
  | '.' :: rest => '.' :: rest.takeWhile Text.isDigit
  | _ => []

theorem numeral_of_whole {whole tail : List Char} (hne : whole ≠ [])
    (hdigits : ∀ c ∈ whole, Text.isDigit c) (htail : ∀ c ∈ tail.head?, Text.isDigit c = false) :
    Token.numeral (whole ++ tail) = whole ++ fractionOf tail := by
  obtain ⟨c, rest, rfl⟩ := List.exists_cons_of_ne_nil hne
  have hpoint : c ≠ '.' := by
    rintro rfl
    exact absurd (hdigits '.' List.mem_cons_self) (by decide)
  unfold Token.numeral
  split
  · rename_i heq
    exact absurd (List.cons.inj heq).1 hpoint
  · rw [Text.takeWhile_run hdigits htail, Text.dropWhile_run hdigits htail]
    unfold fractionOf
    split <;> simp_all

theorem fractionOf_of_free {s : List Char} (hs : Free s) : fractionOf s = [] := by
  unfold fractionOf
  split
  · exact absurd (hs '.' rfl) (by decide)
  · rfl

theorem numeral_text (n : Numeral) {s : List Char} (hs : Free s) :
    Token.numeral (n.text ++ s) = n.text := by
  have hdigits : ∀ c ∈ n.whole ++ n.fraction?.getD [], Text.isDigit c :=
    fun c hc => Text.isDigit_of_ascii (n.digits c hc)
  have hnonempty := n.nonempty
  have hpoint : Text.isDigit '.' = false := by decide
  have hwhole : ∀ c ∈ n.whole, Text.isDigit c := fun c hc => hdigits c (List.mem_append_left _ hc)
  unfold Numeral.text
  cases hf : n.fraction? with
  | none =>
    rw [hf, Option.getD_none, List.append_nil] at hnonempty
    rw [List.append_nil, numeral_of_whole hnonempty hwhole hs.not_isDigit, fractionOf_of_free hs,
      List.append_nil]
  | some fraction =>
    rw [hf, Option.getD_some] at hnonempty hdigits
    have hfraction : ∀ c ∈ fraction, Text.isDigit c :=
      fun c hc => hdigits c (List.mem_append_right _ hc)
    cases hw : n.whole with
    | nil => exact numeral_of_point (by simpa [hw] using hnonempty) hfraction hs
    | cons c whole =>
      have hdot : fractionOf ('.' :: fraction ++ s) = '.' :: fraction := by
        rw [List.cons_append, fractionOf, Text.takeWhile_run hfraction hs.not_isDigit]
      rw [List.append_assoc, ← hw, numeral_of_whole (by simp [hw]) hwhole (by simpa using hpoint),
        hdot]

theorem scan_numeral (n : Numeral) {s : List Char} (hs : Free s) :
    Token.scan? (n.text ++ s) = some (.number n.text n.value, n.text.length) := by
  unfold Token.scan?
  rw [numeral_text n hs]
  obtain ⟨c, rest, hc⟩ := List.exists_cons_of_ne_nil n.text_ne_nil
  have hvalue : Token.valueOf n.text = n.value := by
    rw [Token.valueOf, n.float_text]
    rfl
  rw [hc] at hvalue ⊢
  dsimp only
  rw [hvalue]

theorem numeral_op (o : Op) (s : List Char) : Token.numeral (o.text.toList ++ s) = [] := by
  obtain ⟨c, rest, hc⟩ := List.exists_cons_of_ne_nil (op_ne_nil o)
  have hjoins := op_not_joins o c (hc ▸ List.mem_cons_self)
  have hdigit := not_isDigit_of_not_joins hjoins
  have hpoint : c ≠ '.' := by
    rintro rfl
    cases hjoins
  rw [hc, List.cons_append]
  unfold Token.numeral
  split
  · rename_i heq
    exact absurd (List.cons.inj heq).1 hpoint
  · rw [List.takeWhile_cons_of_neg (by simp [hdigit])]

theorem opScan_text (o : Op) {s : List Char} (hs : o ≠ .closing → s.head? ≠ some '=') :
    Op.scan? (o.text.toList ++ s) = some (o, o.text.toList.length) := by
  cases s with
  | nil => cases o <;> rfl
  | cons c s =>
    cases o with
    | closing => rfl
    | lt | gt | not | eq | ne =>
      have hc : c ≠ '=' := by simpa using hs (by decide)
      simp [Op.text, Op.scan?, hc]
    | _ => rfl

theorem scan_op (o : Op) {s : List Char} (hs : o ≠ .closing → s.head? ≠ some '=') :
    Token.scan? (o.text.toList ++ s) = some (.op o, o.text.toList.length) := by
  unfold Token.scan?
  rw [numeral_op]
  dsimp only
  rw [opScan_text o hs]
  rfl

/-! ### All tokens -/

open Token

theorem scanAll_found {position length : Nat} {s : List Char} {token : Token} (hne : s ≠ [])
    (hscan : scan? (s.dropWhile Text.isBlank) = some (token, length)) : scanAll position s =
      (scanAll (position + ((s.takeWhile Text.isBlank).length + length))
        (s.drop ((s.takeWhile Text.isBlank).length + length))).map (token :: ·) := by
  obtain ⟨c, rest, rfl⟩ := List.exists_cons_of_ne_nil hne
  rw [scanAll]
  split
  · rename_i h
    rw [hscan] at h
    cases h
  · rename_i h
    rw [hscan] at h
    cases h
    cases scanAll _ _ <;> rfl

theorem scanAll_stuck {position : Nat} {s : List Char} (hne : s ≠ [])
    (hscan : scan? (s.dropWhile Text.isBlank) = none) :
    scanAll position s = .error (position, s) := by
  obtain ⟨c, rest, rfl⟩ := List.exists_cons_of_ne_nil hne
  rw [scanAll]
  split
  · rfl
  · rename_i h
    rw [hscan] at h
    cases h

theorem scanAll_of_scan? {position length : Nat} {s : List Char} {token : Token}
    {tokens : List Token} (hne : s ≠ [])
    (hscan : scan? (s.dropWhile Text.isBlank) = some (token, length))
    (hrest : ∀ position, scanAll position (s.drop ((s.takeWhile Text.isBlank).length + length)) =
      .ok tokens) : scanAll position s = .ok (token :: tokens) := by
  rw [scanAll_found hne hscan, hrest]
  rfl

theorem op_not_isBlank (o : Op) : ∀ c ∈ o.text.toList, Text.isBlank c = false := by
  cases o <;> simp [Op.text, Text.isBlank, Text.inRanges, Text.blankRanges]

theorem Lexeme.text_ne_nil {ls : List Lexeme} {l : Lexeme} (h : Bare (l :: ls)) : l.text ≠ [] := by
  cases l with
  | numeral n => exact n.text_ne_nil
  | word w => exact absurd List.mem_cons_self (h w)
  | op o => exact op_ne_nil o

theorem Lexeme.text_not_isBlank {ls : List Lexeme} {l : Lexeme} (h : Bare (l :: ls)) :
    ∀ c ∈ l.text, Text.isBlank c = false := by
  cases l with
  | numeral n => exact fun c hc => Numeral.not_isBlank (n.text_plain c hc)
  | word w => exact absurd List.mem_cons_self (h w)
  | op o => exact op_not_isBlank o

theorem Spaced.head_ne {k : Nat} {ls : List Lexeme} {s : List Char} (h : Spaced k ls s)
    (hbare : Bare ls) (hls : ∀ l ∈ ls.head?, l.starts) : s.head? ≠ some '=' := by
  cases h with
  | nil => cases k <;> simp [List.replicate_succ]
  | @cons n l ls s h =>
    cases n with
    | succ n => simp [List.replicate_succ]
    | zero =>
      rw [List.replicate_zero, List.nil_append,
        List.head?_append_of_ne_nil _ (Lexeme.text_ne_nil hbare)]
      cases l with
      | word w => exact absurd List.mem_cons_self (hbare w)
      | numeral n =>
        intro heq
        have := n.text_plain '=' (List.mem_of_head? heq)
        simp at this
      | op o =>
        rcases hls _ rfl with rfl | ⟨p, rfl⟩
        · simp [Lexeme.text, Op.text]
        · cases p <;> simp [Lexeme.text, Op.text, Prefix.op]

theorem scan_lexeme {k : Nat} {l : Lexeme} {ls : List Lexeme} {s : List Char} (h : Spaced k ls s)
    (hchain : (l :: ls).IsChain Lexeme.Follows) (hbare : Bare (l :: ls)) :
    scan? (l.text ++ s) = some (l.token, l.text.length) := by
  have hnext := (List.isChain_cons.1 hchain).1
  cases l with
  | word w => exact absurd List.mem_cons_self (hbare w)
  | numeral n => exact scan_numeral n (h.free hnext)
  | op o =>
    -- After an operator a value starts, so no longer operator can be read.
    refine scan_op o fun ho => h.head_ne hbare.tail fun l' hl' => ?_
    have hfollows := hnext l' hl'
    rwa [Lexeme.Follows, if_neg (by simpa [Lexeme.closes] using ho)] at hfollows

theorem scanAll_spaced {ls : List Lexeme} {s : List Char} (h : Spaced 0 ls s)
    (hchain : ls.IsChain Lexeme.Follows) (hbare : Bare ls) (position : Nat) :
    scanAll position s = .ok (ls.map Lexeme.token) := by
  induction h generalizing position with
  | nil =>
    rw [List.replicate_zero, scanAll]
    rfl
  | @cons n l ls s h ih =>
    have hne := Lexeme.text_ne_nil hbare
    have hspaces : ∀ c ∈ List.replicate n ' ', Text.isBlank c := by
      intro c hc
      rw [List.eq_of_mem_replicate hc]
      rfl
    -- The spaces in front of a lexeme end where its text starts.
    have hhead : ∀ c ∈ (l.text ++ s).head?, Text.isBlank c = false := by
      rw [List.head?_append_of_ne_nil _ hne]
      exact fun c hc => Lexeme.text_not_isBlank hbare c (List.mem_of_head? hc)
    have hscan : scan? ((List.replicate n ' ' ++ (l.text ++ s)).dropWhile Text.isBlank) =
        some (l.token, l.text.length) := by
      rw [Text.dropWhile_run hspaces hhead]
      exact scan_lexeme h hchain hbare
    refine scanAll_of_scan? (by simp [hne]) hscan fun position => ?_
    rw [Text.takeWhile_run hspaces hhead, List.length_replicate, ← List.append_assoc,
      List.drop_left' (by simp)]
    exact ih hchain.tail hbare.tail position

/-! ### The end of a text -/

theorem trimEnd_append {front : List Char} (h : ∀ c ∈ front, Text.isBlank c = false)
    (s : List Char) : Text.trimEnd (front ++ s) = front ++ Text.trimEnd s := by
  have hfront : front.reverse.dropWhile Text.isBlank = front.reverse :=
    Text.dropWhile_eq_self fun c hc => h c (List.mem_reverse.1 hc)
  unfold Text.trimEnd
  rw [List.reverse_append, List.dropWhile_append]
  split_ifs with hempty
  · rw [hfront, List.reverse_reverse, List.isEmpty_iff.1 hempty]
    exact (List.append_nil front).symm
  · rw [List.reverse_append, List.reverse_reverse]

theorem trimEnd_append_of_ne_nil {s : List Char} (h : Text.trimEnd s ≠ []) (front : List Char) :
    Text.trimEnd (front ++ s) = front ++ Text.trimEnd s := by
  unfold Text.trimEnd at h ⊢
  rw [List.reverse_append, List.dropWhile_append, if_neg (by simpa using h), List.reverse_append,
    List.reverse_reverse]

theorem trimEnd_starts (s : List Char) : Text.trimEnd s <+: s :=
  List.rdropWhile_prefix Text.isBlank s

theorem trimEnd_spaces (n : Nat) : Text.trimEnd (List.replicate n ' ') = [] := by
  rw [Text.trimEnd, List.reverse_replicate, List.dropWhile_eq_nil_iff.2, List.reverse_nil]
  intro c hc
  rw [List.eq_of_mem_replicate hc]
  rfl

theorem Spaced.trimEnd {k : Nat} {ls : List Lexeme} {s : List Char} (h : Spaced k ls s)
    (hbare : Bare ls) : Spaced 0 ls (Text.trimEnd s) := by
  induction h with
  | nil =>
    rw [trimEnd_spaces]
    exact .nil
  | @cons n l ls s h ih =>
    have htext := trimEnd_append (Lexeme.text_not_isBlank hbare) s
    have hne : Text.trimEnd (l.text ++ s) ≠ [] := by simp [htext, Lexeme.text_ne_nil hbare]
    rw [trimEnd_append_of_ne_nil hne, htext]
    exact .cons n l (ih hbare.tail)

theorem tokenize_spaced {k : Nat} {ls : List Lexeme} {s : List Char} (h : Spaced k ls s)
    (hchain : ls.IsChain Lexeme.Follows) (hbare : Bare ls) :
    tokenize s = .ok (ls.map Lexeme.token) := scanAll_spaced (h.trimEnd hbare) hchain hbare 0

end Gameroom.Expression
