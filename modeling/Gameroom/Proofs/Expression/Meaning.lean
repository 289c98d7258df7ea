import Gameroom.Proofs.Expression.Parsing

/-! A condition comes to what its tree means. -/

namespace Gameroom.Expression

variable {context : Context} {t : Tree} {k n level : Nat} {ls : List Lexeme} {s : List Char}

/-! ### The lexemes of a tree -/

theorem phrase_signed (p : Prefix) (h : Phrase ls) : Phrase (.op p.op :: ls) := by
  have hcloses : (Lexeme.op p.op).closes = false := by cases p <;> rfl
  refine ⟨by simp, List.isChain_cons.2 ⟨fun m hm => ?_, h.chain⟩, ?_, ?_⟩
  · rw [Lexeme.Follows, hcloses]
    exact h.starts m hm
  · rintro m ⟨⟩
    exact .inr ⟨p, rfl⟩
  · rw [List.getLast?_cons_of_ne_nil h.nonempty]
    exact h.closes

theorem phrase_joined (o : Infix) {rs : List Lexeme} (hl : Phrase ls) (hr : Phrase rs) :
    Phrase (ls ++ .op o.op :: rs) := by
  have hopen : (Lexeme.op o.op).closes = false := by cases o <;> rfl
  refine ⟨by simp, List.isChain_append.2 ⟨hl.chain, List.isChain_cons.2
    ⟨fun m hm => ?_, hr.chain⟩, ?_⟩, ?_, ?_⟩
  · rw [Lexeme.Follows, hopen]
    exact hr.starts m hm
  · rintro l hlast m ⟨⟩
    rw [Lexeme.Follows, hl.closes l hlast]
    exact .inr ⟨o, rfl⟩
  · rw [List.head?_append_of_ne_nil _ hl.nonempty]
    exact hl.starts
  · rw [List.getLast?_append_of_ne_nil _ (by simp), List.getLast?_cons_of_ne_nil hr.nonempty]
    exact hr.closes

theorem phrase_parentheses (h : Phrase ls) : Phrase (.op .opening :: (ls ++ [.op .closing])) := by
  refine ⟨by simp, List.isChain_cons.2 ⟨fun m hm => ?_, List.isChain_append.2
    ⟨h.chain, .singleton _, ?_⟩⟩, ?_, ?_⟩
  · rw [List.head?_append_of_ne_nil _ h.nonempty] at hm
    exact h.starts m hm
  · rintro l hlast m ⟨⟩
    rw [Lexeme.Follows, h.closes l hlast]
    exact .inl rfl
  · rintro m ⟨⟩
    exact .inl rfl
  · rw [← List.cons_append, List.getLast?_concat]
    rintro m ⟨⟩
    rfl

namespace Tree.Prints

theorem phrase (h : t.Prints level n ls) : Phrase ls := by
  induction h with
  | literal | name | property => exact phrase_single _ trivial rfl
  | signed p level h ih => exact phrase_signed p ih
  | joined hl hr hlevel ihl ihr => exact phrase_joined _ ihl ihr
  | parentheses level h ih => exact phrase_parentheses ih

theorem named (h : t.Prints level n ls) (hc : context.Plain) (ht : t.Closed context) {w : String}
    (hw : .word w ∈ ls) : ∃ value, Table.get? context.names w = some value := by
  induction h with
  | literal => simp at hw
  | name x =>
    obtain ⟨value, hvalue⟩ := Option.isSome_iff_exists.1 ht
    obtain rfl : w = x := by simpa using hw
    exact ⟨value, hc.get?_name hvalue⟩
  | property entity key =>
    obtain ⟨value, hvalue⟩ := Option.isSome_iff_exists.1 ht
    obtain rfl : w = entity ++ "." ++ key := by simpa using hw
    exact ⟨value, hc.get?_property hvalue⟩
  | signed p level h ih => exact ih ht (by simpa using hw)
  | joined hl hr hlevel ihl ihr =>
    rcases List.mem_append.1 hw with hw | hw
    · exact ihl ht.1 hw
    · exact ihr ht.2 (by simpa using hw)
  | parentheses level h ih => exact ih ht (by simpa using hw)

theorem replaceable (h : t.Prints level n ls) (hc : context.Plain) (ht : t.Closed context)
    {w : String} (hw : .word w ∈ ls) : Replaceable w.toList := by
  obtain ⟨value, hvalue⟩ := h.named hc ht hw
  exact (hc.names _ (Table.mem_of_get? hvalue)).1.replaceable

theorem bare (h : t.Prints level n ls) (hc : context.Plain) (ht : t.Closed context) :
    Bare (ls.flatMap (Lexeme.resolved context.names)) := by
  intro w hw
  obtain ⟨l, hl, hw⟩ := List.mem_flatMap.1 hw
  cases l with
  | numeral | op => simp [Lexeme.resolved] at hw
  | word v =>
    obtain ⟨value, hvalue⟩ := h.named hc ht hl
    rw [Lexeme.resolved, hvalue] at hw
    exact not_word_spelled w value hw

end Tree.Prints

theorem resolved_ne_nil (hc : context.Plain) (hne : ls ≠ []) :
    ls.flatMap (Lexeme.resolved context.names) ≠ [] := by
  obtain ⟨l, rest, rfl⟩ := List.exists_cons_of_ne_nil hne
  rw [List.flatMap_cons]
  refine List.append_ne_nil_of_left_ne_nil ?_ _
  cases l with
  | numeral | op => simp [Lexeme.resolved]
  | word w =>
    rw [Lexeme.resolved]
    split
    · rename_i value hvalue
      exact (phrase_spelled (hc.names _ (Table.mem_of_get? hvalue)).2).nonempty
    · simp

/-! ### The characters of a text -/

namespace Spaced

theorem mem (h : Spaced k ls s) {l : Lexeme} (hl : l ∈ ls) {c : Char} (hc : c ∈ l.text) :
    c ∈ s := by
  induction h with
  | nil => cases hl
  | cons spaces first h ih =>
    rcases List.mem_cons.1 hl with rfl | hl
    · simp [hc]
    · simp [ih hl]

theorem eq_space_or_mem (h : Spaced k ls s) {c : Char} (hc : c ∈ s) :
    c = ' ' ∨ ∃ l ∈ ls, c ∈ l.text := by
  induction h with
  | nil => exact .inl (List.eq_of_mem_replicate hc)
  | cons spaces first h ih =>
    rcases List.mem_append.1 hc with hc | hc
    · exact .inl (List.eq_of_mem_replicate hc)
    · rcases List.mem_append.1 hc with hc | hc
      · exact .inr ⟨first, List.mem_cons_self, hc⟩
      · obtain hspace | ⟨l, hl, hmem⟩ := ih hc
        · exact .inl hspace
        · exact .inr ⟨l, List.mem_cons_of_mem _ hl, hmem⟩

end Spaced

theorem not_isBlank_of_joins {c : Char} (h : joins c) : Text.isBlank c = false := by
  rcases Bool.or_eq_true_iff.1 h with h | h
  · exact Text.not_isBlank_of_isWord h
  · rw [eq_of_beq h]
    decide

theorem Spaced.not_blank (h : Spaced k ls s) (hne : ls ≠ [])
    (hwords : ∀ w, .word w ∈ ls → Replaceable w.toList) : s.all Text.isBlank = false := by
  obtain ⟨l, rest, rfl⟩ := List.exists_cons_of_ne_nil hne
  obtain ⟨c, hc, hblank⟩ : ∃ c ∈ l.text, Text.isBlank c = false := by
    cases l with
    | numeral n =>
      obtain ⟨c, hc⟩ := List.exists_mem_of_ne_nil _ n.text_ne_nil
      exact ⟨c, hc, not_isBlank_of_joins (n.text_joins c hc)⟩
    | word w =>
      obtain ⟨hnonempty, hjoins⟩ := hwords w List.mem_cons_self
      obtain ⟨c, hc⟩ := List.exists_mem_of_ne_nil _ hnonempty
      exact ⟨c, hc, not_isBlank_of_joins (hjoins c hc)⟩
    | op o =>
      obtain ⟨c, hc⟩ := List.exists_mem_of_ne_nil _ (op_ne_nil o)
      exact ⟨c, hc, op_not_isBlank o c hc⟩
  rw [List.all_eq_false]
  exact ⟨c, h.mem List.mem_cons_self hc, by simp [hblank]⟩

theorem op_isAllowed (o : Op) : ∀ c ∈ o.text.toList, isAllowed c := by
  cases o <;> simp [Op.text, isAllowed]

theorem Numeral.isAllowed (n : Numeral) : ∀ c ∈ n.text, isAllowed c := by
  intro c hc
  rcases n.text_plain c hc with h | rfl
  · simp [Expression.isAllowed, h]
  · decide

theorem Spaced.allowed (h : Spaced k ls s) (hbare : Bare ls) (hne : ls ≠ []) :
    allowed s := by
  have hall : ∀ c ∈ s, isAllowed c := by
    intro c hc
    obtain rfl | ⟨l, hl, hc⟩ := h.eq_space_or_mem hc
    · decide
    · cases l with
      | numeral n => exact n.isAllowed c hc
      | word w => exact absurd hl (hbare w)
      | op o => exact op_isAllowed o c hc
  have hs : s ≠ [] := by
    obtain ⟨l, rest, rfl⟩ := List.exists_cons_of_ne_nil hne
    obtain ⟨c, hc⟩ := List.exists_mem_of_ne_nil _ (Lexeme.text_ne_nil hbare)
    exact List.ne_nil_of_mem (h.mem List.mem_cons_self hc)
  have hlast : s.getLast? ≠ some '\n' := by
    intro hlast
    exact absurd (hall '\n' (List.mem_of_getLast? hlast)) (by decide)
  rw [Expression.allowed, if_neg hlast]
  simp [hs, List.all_eq_true.2 hall]

/-! ### Conditions -/

theorem parse_eq {ts : List Token} (hts : ts ≠ []) : parse ts =
    read (tier 0 maxNesting) ts >>= fun found =>
      match found.2 with
      | [] => .ok found.1
      | t :: _ => .error (.token (some t)) := by
  have htier : tier 0 maxNesting = leveled (operand maxNesting) := rfl
  rw [parse, if_neg hts, htier, read]
  cases leveled (operand maxNesting) ts with
  | error e => rfl
  | ok found =>
    obtain ⟨v, rest, shorter⟩ := found
    cases rest <;> rfl

theorem parse_tokens (hc : context.Plain) (ht : t.Closed context) (hp : t.Prints 0 n ls)
    (hn : n < maxNesting) : parse (tokens context ls) = t.outcome context.environment := by
  have hne : tokens context ls ≠ [] :=
    mt List.map_eq_nil_iff.1 (resolved_ne_nil hc hp.phrase.nonempty)
  have hstop (v : Value) : after 0 maxNesting v [] = .ok (v, []) := extend_stop _ v (by simp)
  have hloose : Loose 0 [] := by simp [Loose]
  have hread := read_printed hc hp ht hn hloose
  rw [List.append_nil] at hread
  rw [parse_eq hne, hread]
  simp only [hstop]
  cases t.outcome context.environment <;> rfl

theorem evaluate_eq {text : List Char} (hblank : s.all Text.isBlank = false)
    (htext : substitute context s = .ok text) :
    evaluate context s = .ok (if allowed text then valueOf text else .error (.disallowed s)) := by
  rw [evaluate, hblank, htext]
  rfl

/-- A condition written for a tree comes to the value of the tree, and fails exactly if some divisor
is zero. -/
theorem evaluate_printed (hc : context.Plain) (ht : t.Closed context) (hp : t.Prints 0 n ls)
    (hn : n ≤ 31) (hs : Spaced k ls s) :
    evaluate context s = .ok (t.outcome context.environment) ∧
      ((∃ e, evaluate context s = .ok (.error e)) ↔ t.HasZeroDivisor context.environment) := by
  have hwords (w : String) (hw : .word w ∈ ls) := hp.replaceable hc ht hw
  have hbare := hp.bare hc ht
  have hphrase := hp.phrase
  obtain ⟨s', hs', hspaced, hchain⟩ := replaceAll_spaced hc.names hs hphrase.chain hwords
  have hne := resolved_ne_nil hc hphrase.nonempty
  have hvalue : valueOf s' = t.outcome context.environment := by
    rw [valueOf, tokenize_spaced hspaced hchain hbare]
    exact parse_tokens hc ht hp (Nat.lt_succ_of_le hn)
  have hevaluate : evaluate context s = .ok (t.outcome context.environment) := by
    have hblank : s.all Text.isBlank = false := hs.not_blank hphrase.nonempty hwords
    rw [evaluate, hblank, substitute, hs']
    simp only [Bool.false_eq_true, if_false, hspaced.allowed hbare hne, if_true, hvalue]
  refine ⟨hevaluate, ?_⟩
  rw [hevaluate, ← Tree.value_eq_none, Tree.outcome]
  cases t.value context.environment <;> simp

def doorway : Context where
  entities := [("door", [("hp", .number (.int 3))])]
  vars := [("x", .number (.int (-5)))]

theorem doorway_plain : doorway.Plain where
  entities := by
    rintro entity (_ | ⟨_, ⟨⟩⟩)
    refine ⟨⟨'d', ['o', 'o', 'r'], rfl, by decide, by simp [Text.isWord, Char.isAlphanum]⟩, ?_⟩
    rintro property (_ | ⟨_, ⟨⟩⟩)
    refine ⟨⟨'h', ['p'], rfl, by decide, by simp [Text.isWord, Char.isAlphanum]⟩, ?_⟩
    exact (by decide : 3 < 10 ^ 15)
  vars := by
    rintro var (_ | ⟨_, ⟨⟩⟩)
    refine ⟨⟨'x', [], rfl, by decide, by simp [Text.isWord, Char.isAlphanum]⟩, ?_⟩
    exact (by decide : 5 < 10 ^ 15)

theorem evaluate_printed_doorway :
    evaluate doorway "!x ||door.hp/1.5<-x".toList = .ok (.ok (.truth true)) := by
  let n : Numeral := ⟨['1'], some ['5'], by simp, by simp⟩
  let t : Tree := .joined .or (.signed .not (.name "x")) (.joined .lt
    (.joined .div (.property "door" "hp") (.literal n)) (.signed .minus (.name "x")))
  let ls : List Lexeme := [.op .not, .word "x", .op .or, .word "door.hp", .op .div, .numeral n,
    .op .lt, .op .sub, .word "x"]
  have hclosed : t.Closed doorway := ⟨rfl, ⟨rfl, trivial⟩, rfl⟩
  have hquotient : Tree.Prints (.joined .div (.property "door" "hp") (.literal n)) 3 0
      [.word "door.hp", .op .div, .numeral n] :=
    .joined (o := .div) (.property "door" "hp" 5) (.literal n 6) (show 3 ≤ 5 by decide)
  have hprints : t.Prints 0 1 ls :=
    .joined (o := .or) (.signed .not 0 (.name "x" 6))
      (.joined (o := .lt) hquotient (.signed .minus 4 (.name "x" 6)) (show 1 ≤ 3 by decide)) le_rfl
  have hspaced : Spaced 0 ls "!x ||door.hp/1.5<-x".toList :=
    .cons 0 _ (.cons 0 _ (.cons 1 _ (.cons 0 _ (.cons 0 _ (.cons 0 _ (.cons 0 _ (.cons 0 _
      (.cons 0 _ .nil))))))))
  have hvalue : t.value doorway.environment = some (.truth true) := by decide +kernel
  rw [(evaluate_printed doorway_plain hclosed hprints (by decide) hspaced).1, Tree.outcome, hvalue]

end Gameroom.Expression
