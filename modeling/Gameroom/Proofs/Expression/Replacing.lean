import Gameroom.Proofs.Expression.Numerals

/-! Names in a text of lexemes are replaced one lexeme at a time. -/

namespace Gameroom.Expression

/-! ### Characters -/

theorem joins_of_ascii {c : Char} (h : c.toNat < 128) :
    joins c = (c.isAlphanum || c == '_' || c == '.') := by
  rw [joins, Text.isWord_of_ascii h]

theorem space_not_joins : joins ' ' = false := by
  rw [joins_of_ascii] <;> decide

theorem op_not_joins (o : Op) : ∀ c ∈ o.text.toList, joins c = false := by
  cases o <;> simp [Op.text, joins_of_ascii, Char.isAlphanum, Char.isAlpha, Char.isUpper,
    Char.isLower, Char.isDigit]

theorem op_ne_nil (o : Op) : o.text.toList ≠ [] := by
  cases o <;> simp [Op.text]

theorem joins_of_isWord {c : Char} (h : Text.isWord c) : joins c := by
  rw [joins, h]
  rfl

theorem Numeral.text_joins (n : Numeral) : ∀ c ∈ n.text, joins c := by
  intro c hc
  rcases n.text_plain c hc with h | rfl
  · exact joins_of_isWord (Text.isWord_of_isDigit (Text.isDigit_of_ascii h))
  · rfl

/-! ### One name -/

/-- A text at whose start no name goes on. -/
def Free (s : List Char) : Prop := ∀ c ∈ s.head?, joins c = false

/-- A name that can be replaced: it joins, and does not start with a digit or a point. -/
structure Replaceable (name : List Char) : Prop where
  nonempty : name ≠ []
  joins : ∀ c ∈ name, joins c

variable {name literal : List Char}

theorem replaceFrom_sign (hname : Replaceable name) {c : Char} (hc : joins c = false)
    (joined : Bool) (s : List Char) :
    replaceFrom name literal 0 joined (c :: s) = c :: replaceFrom name literal 0 false s := by
  have hstart : startsWith name (c :: s) = false := by
    obtain ⟨first, rest, rfl⟩ := List.exists_cons_of_ne_nil hname.nonempty
    have hne : first ≠ c := by
      rintro rfl
      rw [hname.joins first List.mem_cons_self] at hc
      cases hc
    simp [startsWith, hne]
  rw [replaceFrom, hstart, Bool.and_false, hc]
  rfl

theorem replaceFrom_signs (hname : Replaceable name) {cs : List Char}
    (hcs : ∀ c ∈ cs, joins c = false) {joined : Bool} (hjoined : joined = true → cs ≠ [])
    (s : List Char) :
    replaceFrom name literal 0 joined (cs ++ s) = cs ++ replaceFrom name literal 0 false s := by
  induction cs generalizing joined with
  | nil =>
    cases joined with
    | false => rfl
    | true => exact absurd rfl (hjoined rfl)
  | cons c cs ih =>
    rw [List.cons_append, replaceFrom_sign hname (hcs c List.mem_cons_self),
      ih (fun c hc => hcs c (List.mem_cons_of_mem _ hc)) (by simp)]
    rfl

theorem replaceFrom_joined {w : List Char} (hw : ∀ c ∈ w, joins c)
    (s : List Char) :
    replaceFrom name literal 0 true (w ++ s) = w ++ replaceFrom name literal 0 true s := by
  induction w with
  | nil => rfl
  | cons c w ih =>
    rw [List.cons_append, replaceFrom, Bool.not_true, Bool.false_and, hw c List.mem_cons_self,
      ih fun c hc => hw c (List.mem_cons_of_mem _ hc)]
    rfl

theorem replaceFrom_skip {w : List Char} (hw : ∀ c ∈ w, joins c) (s : List Char) :
    replaceFrom name literal w.length true (w ++ s) = replaceFrom name literal 0 true s := by
  induction w with
  | nil => rfl
  | cons c w ih =>
    rw [List.cons_append, List.length_cons, replaceFrom, hw c List.mem_cons_self,
      ih fun c hc => hw c (List.mem_cons_of_mem _ hc)]

theorem startsWith_iff (hname : Replaceable name) {w s : List Char} (hw : ∀ c ∈ w, joins c)
    (hs : Free s) : startsWith name (w ++ s) ↔ w = name := by
  constructor
  · intro h
    obtain ⟨hstarts, hend⟩ := Bool.and_eq_true_iff.1 h
    obtain ⟨t, ht⟩ := List.isPrefixOf_iff_prefix.1 hstarts
    rw [← ht, List.drop_left] at hend
    -- Either the name goes on within the word or the word within the name.
    rcases List.append_eq_append_iff.1 ht with ⟨more, rfl, rfl⟩ | ⟨more, rfl, rfl⟩
    · cases more with
      | nil => exact List.append_nil _
      | cons c more =>
        have hc := hw c (List.mem_append_right _ List.mem_cons_self)
        rw [List.cons_append, List.head?_cons, Option.any_some, hc] at hend
        cases hend
    · cases more with
      | nil => exact (List.append_nil _).symm
      | cons c more =>
        have hc := hname.joins c (List.mem_append_right _ List.mem_cons_self)
        rw [hs c rfl] at hc
        cases hc
  · rintro rfl
    rw [startsWith, List.drop_left, Bool.and_eq_true, List.isPrefixOf_iff_prefix]
    refine ⟨List.prefix_append _ _, ?_⟩
    cases hhead : s.head? with
    | none => rfl
    | some c =>
      rw [Option.any_some, hs c hhead]
      rfl

theorem replaceFrom_word (hname : Replaceable name) {w s : List Char} (hw : ∀ c ∈ w, joins c)
    (hne : w ≠ []) (hs : Free s) :
    replaceFrom name literal 0 false (w ++ s) =
      (if w = name then literal else w) ++ replaceFrom name literal 0 true s := by
  have hstart := startsWith_iff hname hw hs
  obtain ⟨c, rest, rfl⟩ := List.exists_cons_of_ne_nil hne
  have hc := hw c List.mem_cons_self
  have hrest : ∀ c' ∈ rest, joins c' := fun c' hc' => hw c' (List.mem_cons_of_mem _ hc')
  rw [List.cons_append] at hstart ⊢
  rw [replaceFrom, Bool.not_false, Bool.true_and, hc]
  by_cases h : c :: rest = name
  · subst h
    rw [if_pos (hstart.2 rfl), if_neg hne, if_pos rfl, List.length_cons, Nat.add_sub_cancel,
      replaceFrom_skip hrest]
  · rw [if_neg (mt hstart.1 h), if_neg h, replaceFrom_joined hrest]
    rfl

theorem replaceFrom_spaces (hname : Replaceable name) (n : Nat) {joined : Bool} {s : List Char}
    (hjoined : joined = true → Free (List.replicate n ' ' ++ s)) :
    ∃ joined', (joined' = true → Free s) ∧
      replaceFrom name literal 0 joined (List.replicate n ' ' ++ s) =
        List.replicate n ' ' ++ replaceFrom name literal 0 joined' s := by
  cases n with
  | zero => exact ⟨joined, hjoined, rfl⟩
  | succ n =>
    refine ⟨false, by simp, replaceFrom_signs hname (fun c hc => ?_) (by simp) s⟩
    rw [List.eq_of_mem_replicate hc]
    exact space_not_joins

/-! ### Lexemes -/

namespace Lexeme

def starts : Lexeme → Prop
  | op o => o = .opening ∨ ∃ p : Prefix, o = p.op
  | _ => True

def continues : Lexeme → Prop
  | op o => o = .closing ∨ ∃ i : Infix, o = i.op
  | _ => False

def closes : Lexeme → Bool
  | op o => o = .closing
  | _ => true

/-- One lexeme can follow another one. -/
def Follows (l l' : Lexeme) : Prop := if l.closes then l'.continues else l'.starts

end Lexeme

theorem Spaced.free {k : Nat} {ls : List Lexeme} {s : List Char} (h : Spaced k ls s)
    (hls : ∀ l ∈ ls.head?, l.continues) : Free s := by
  cases h with
  | nil =>
    cases k with
    | zero => simp [Free]
    | succ k => simp [Free, List.replicate_succ, space_not_joins]
  | @cons n l ls s h =>
    cases n with
    | succ n => simp [Free, List.replicate_succ, space_not_joins]
    | zero =>
      have hl := hls l rfl
      cases l with
      | numeral | word => exact hl.elim
      | op o =>
        intro c hc
        refine op_not_joins o c (List.mem_of_head? ?_)
        obtain ⟨first, rest, hop⟩ := List.exists_cons_of_ne_nil (op_ne_nil o)
        simp only [Lexeme.text, hop, List.replicate_zero, List.nil_append, List.cons_append,
          List.head?_cons] at hc ⊢
        exact hc

theorem Spaced.prepend {k : Nat} {ms ls : List Lexeme} {s : List Char} (h : Spaced k ls s)
    (hms : ms ≠ []) (n : Nat) :
    Spaced k (ms ++ ls) (List.replicate n ' ' ++ (ms.flatMap Lexeme.text ++ s)) := by
  induction ms generalizing n with
  | nil => exact absurd rfl hms
  | cons m ms ih =>
    rw [List.cons_append, List.flatMap_cons, List.append_assoc]
    refine .cons n m ?_
    cases ms with
    | nil => exact h
    | cons m' ms => exact ih (by simp) 0

def Lexeme.replaced (name : String) (ms : List Lexeme) : Lexeme → List Lexeme
  | word w => if w = name then ms else [word w]
  | l => [l]

theorem replaceFrom_spaced {name : String} (hname : Replaceable name.toList)
    (hnumeral : ∀ n : Numeral, n.text ≠ name.toList) {ms : List Lexeme} (hms : ms ≠ []) {k : Nat}
    {ls : List Lexeme} {s : List Char} (h : Spaced k ls s) (hchain : ls.IsChain Lexeme.Follows)
    (hwords : ∀ w, .word w ∈ ls → Replaceable w.toList) (joined : Bool)
    (hjoined : joined = true → Free s) :
    Spaced k (ls.flatMap (Lexeme.replaced name ms))
      (replaceFrom name.toList (ms.flatMap Lexeme.text) 0 joined s) := by
  induction h generalizing joined with
  | nil =>
    rw [← List.append_nil (List.replicate k ' ')] at hjoined ⊢
    obtain ⟨joined', -, heq⟩ := replaceFrom_spaces hname k hjoined
    rw [heq, replaceFrom, if_neg fun h => hname.nonempty h.1, List.append_nil]
    exact .nil
  | @cons n l ls s h ih =>
    obtain ⟨joined', hjoined', heq⟩ := replaceFrom_spaces hname n hjoined
    rw [heq, List.flatMap_cons]
    have htail := hchain.tail
    have hrest (w : String) (hw : .word w ∈ ls) := hwords w (List.mem_cons_of_mem _ hw)
    -- A word is met where no name goes on, and none goes on after it.
    have hword (hjoins : ∀ c ∈ l.text, joins c) (hne : l.text ≠ []) (hcloses : l.closes) :
        replaceFrom name.toList (ms.flatMap Lexeme.text) 0 joined' (l.text ++ s) =
          (if l.text = name.toList then ms.flatMap Lexeme.text else l.text) ++
            replaceFrom name.toList (ms.flatMap Lexeme.text) 0 true s ∧ Free s := by
      have hfree : Free s := by
        refine h.free fun l' hl' => ?_
        have hfollows := (List.isChain_cons.1 hchain).1 l' hl'
        rwa [Lexeme.Follows, if_pos hcloses] at hfollows
      obtain rfl : joined' = false := by
        by_contra hnot
        obtain ⟨c, rest, hc⟩ := List.exists_cons_of_ne_nil hne
        have hhead : joins c = false :=
          hjoined' (by simpa using hnot) c (by rw [hc]; rfl)
        rw [hjoins c (hc ▸ List.mem_cons_self)] at hhead
        cases hhead
      exact ⟨replaceFrom_word hname hjoins hne hfree, hfree⟩
    cases l with
    | numeral m =>
      obtain ⟨hreplaced, hfree⟩ := hword m.text_joins m.text_ne_nil rfl
      rw [hreplaced, if_neg (show (Lexeme.numeral m).text ≠ name.toList from hnumeral m)]
      exact .cons n _ (ih htail hrest true fun _ => hfree)
    | word w =>
      obtain ⟨hreplaced, hfree⟩ := hword (hwords w List.mem_cons_self).joins
        (hwords w List.mem_cons_self).nonempty rfl
      have hiff : (Lexeme.word w).text = name.toList ↔ w = name := String.toList_inj
      rw [hreplaced, Lexeme.replaced]
      by_cases hw : w = name
      · rw [if_pos hw, if_pos (hiff.2 hw)]
        exact (ih htail hrest true fun _ => hfree).prepend hms n
      · rw [if_neg hw, if_neg (mt hiff.1 hw)]
        exact .cons n _ (ih htail hrest true fun _ => hfree)
    | op o =>
      have htext : (Lexeme.op o).text = o.text.toList := rfl
      rw [htext, replaceFrom_signs hname (op_not_joins o) fun _ => op_ne_nil o]
      exact .cons n _ (ih htail hrest false (by simp))

end Gameroom.Expression
