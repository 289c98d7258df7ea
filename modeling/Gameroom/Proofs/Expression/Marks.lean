import Gameroom.Proofs.Expression.Lexing

/-!
What tokens are written as: numbers in digits of any script, and operators, of which equality and
its negation are also written with a third sign. At the start of a text the longest of these is a
token.
-/

namespace Gameroom.Expression
open Token

/-! ### Numbers in digits of any script -/

theorem isDigit_plainDigit {c : Char} (h : Text.isDigit c) : (Reading.plainDigit c).isDigit := by
  obtain ⟨d, hd⟩ := Option.isSome_iff_exists.1 h
  obtain ⟨first, hfirst, rfl⟩ := Option.map_eq_some_iff.1 hd
  have hrange := List.find?_some hfirst
  rw [Bool.and_eq_true, decide_eq_true_iff, decide_eq_true_iff] at hrange
  obtain ⟨k, hk, hle⟩ : ∃ k, c.toNat - first = k ∧ k ≤ 9 := ⟨_, rfl, by omega⟩
  rw [Reading.plainDigit, hd, hk]
  interval_cases k <;> rfl

/-- A number as it is written: digits of any script, perhaps a point and more digits. -/
structure Figure where
  whole : List Char
  /-- The digits after the point, if there is one. -/
  fraction? : Option (List Char)
  digits : ∀ c ∈ whole ++ fraction?.getD [], Text.isDigit c
  nonempty : whole ++ fraction?.getD [] ≠ []

namespace Figure

def text (n : Figure) : List Char :=
  n.whole ++ match n.fraction? with
    | none => []
    | some fraction => '.' :: fraction

def plain (n : Figure) : Numeral where
  whole := n.whole.map Reading.plainDigit
  fraction? := n.fraction?.map (List.map Reading.plainDigit)
  digits := by
    have hdigits := n.digits
    cases hf : n.fraction? with
    | none =>
      rw [hf] at hdigits
      simpa using fun c hc => isDigit_plainDigit (hdigits c (List.mem_append_left _ hc))
    | some fraction =>
      rw [hf] at hdigits
      intro c hc
      rw [Option.map_some, Option.getD_some, ← List.map_append] at hc
      obtain ⟨d, hd, rfl⟩ := List.mem_map.1 hc
      exact isDigit_plainDigit (hdigits d hd)
  nonempty := by
    have hnonempty := n.nonempty
    cases hf : n.fraction? <;> simpa [hf] using hnonempty

def value (n : Figure) : Float := n.plain.value

theorem whole_digits (n : Figure) : ∀ c ∈ n.whole, Text.isDigit c :=
  fun c hc => n.digits c (List.mem_append_left _ hc)

theorem fraction_digits {n : Figure} {fraction : List Char} (h : n.fraction? = some fraction) :
    ∀ c ∈ fraction, Text.isDigit c :=
  fun c hc => n.digits c (List.mem_append_right _ (by simpa [h] using hc))

theorem text_joins (n : Figure) : ∀ c ∈ n.text, joins c := by
  intro c hc
  unfold text at hc
  rcases List.mem_append.1 hc with hc | hc
  · exact joins_of_isDigit (n.whole_digits c hc)
  · cases hf : n.fraction? with
    | none => simp [hf] at hc
    | some fraction =>
      rw [hf] at hc
      rcases List.mem_cons.1 hc with rfl | hc
      · rfl
      · exact joins_of_isDigit (fraction_digits hf c hc)

theorem text_ne_nil (n : Figure) : n.text ≠ [] := by
  have hnonempty := n.nonempty
  unfold text
  cases hf : n.fraction? with
  | none => simpa [hf] using hnonempty
  | some fraction => simp

theorem plain_text (n : Figure) : n.plain.text = n.text.map Reading.plainDigit := by
  have hpoint : Reading.plainDigit '.' = '.' := by decide
  unfold text
  rw [List.map_append]
  cases hf : n.fraction? <;> simp [Numeral.text, plain, hf, hpoint]

theorem float_text (n : Figure) : Reading.float? n.text = some n.value := by
  have hnormal : Reading.normal n.text = n.plain.text := by
    rw [plain_text]
    exact Numeral.normal_map fun c hc =>
      Numeral.not_isNumberBlank (not_isBlank_of_joins (n.text_joins c hc))
  have hfloat := n.plain.float_text
  unfold Reading.float? at hfloat ⊢
  rwa [Numeral.normal_text, ← hnormal] at hfloat

theorem valueOf_text (n : Figure) : Token.valueOf n.text = n.value := by
  rw [Token.valueOf, n.float_text]
  rfl

theorem prefix_numeral (n : Figure) (s : List Char) : n.text <+: numeral (n.text ++ s) := by
  have hwhole := n.whole_digits
  have hnonempty := n.nonempty
  unfold text
  -- Digits that follow a whole number are scanned with it, as are those that follow a fraction.
  cases hf : n.fraction? with
  | none =>
    rw [hf, Option.getD_none, List.append_nil] at hnonempty
    obtain ⟨more, tail, rfl, hmore, htail⟩ := digits_append s
    have hdigits : ∀ c ∈ n.whole ++ more, Text.isDigit c :=
      fun c hc => (List.mem_append.1 hc).elim (hwhole c) (hmore c)
    rw [List.append_nil, ← List.append_assoc,
      numeral_of_whole (List.append_ne_nil_of_left_ne_nil hnonempty _) hdigits htail,
      List.append_assoc]
    exact List.prefix_append _ _
  | some fraction =>
    have hfraction := fraction_digits hf
    rw [hf, Option.getD_some] at hnonempty
    have hmore : (fraction ++ s).takeWhile Text.isDigit =
        fraction ++ s.takeWhile Text.isDigit := List.takeWhile_append_of_pos hfraction
    change n.whole ++ '.' :: fraction <+: numeral (n.whole ++ '.' :: fraction ++ s)
    rw [List.append_assoc, List.cons_append]
    by_cases hw : n.whole = []
    · have hne : fraction ≠ [] := by simpa [hw] using hnonempty
      rw [hw, List.nil_append, List.nil_append, numeral_point, hmore,
        if_neg (List.append_ne_nil_of_left_ne_nil hne _)]
      exact List.cons_prefix_cons.2 ⟨rfl, List.prefix_append _ _⟩
    · have hpoint : ∀ c ∈ ('.' :: (fraction ++ s)).head?, Text.isDigit c = false := by
        simpa using show Text.isDigit '.' = false by decide
      rw [numeral_of_whole hw hwhole hpoint, fractionOf, hmore]
      exact (List.prefix_append_right_inj _).2
        (List.cons_prefix_cons.2 ⟨rfl, List.prefix_append _ _⟩)

theorem exists_of_numeral {s : List Char} (h : numeral s ≠ []) :
    ∃ n : Figure, n.text = numeral s := by
  obtain ⟨whole, tail, rfl, hwhole, htail⟩ := digits_append s
  have hdigits (s : List Char) : ∀ c ∈ s.takeWhile Text.isDigit, Text.isDigit c :=
    fun c hc => List.mem_takeWhile_imp hc
  by_cases hne : whole = []
  · subst hne
    rw [List.nil_append] at h ⊢
    cases tail with
    | nil => exact absurd rfl h
    | cons c tail =>
      by_cases hpoint : c = '.'
      · subst hpoint
        rw [numeral_point] at h ⊢
        split_ifs at h ⊢ with hnone
        · exact absurd rfl h
        · exact ⟨⟨[], some _, hdigits tail, hnone⟩, rfl⟩
      · exact absurd (numeral_other (htail c rfl) hpoint tail) h
  · rw [numeral_of_whole hne hwhole htail]
    unfold fractionOf
    split
    · rename_i rest
      refine ⟨⟨whole, some (rest.takeWhile Text.isDigit), fun c hc => ?_,
        List.append_ne_nil_of_left_ne_nil hne _⟩, rfl⟩
      exact (List.mem_append.1 hc).elim (hwhole c) (hdigits rest c)
    · exact ⟨⟨whole, none, by simpa using hwhole, by simpa using hne⟩, rfl⟩

end Figure

/-! ### Marks -/

/-- What a token is written as. -/
inductive Mark where
  | figure (n : Figure)
  | op (o : Op)
  /-- Equality with a third sign. -/
  | strictEq
  /-- The negation of equality with a third sign. -/
  | strictNe

namespace Mark

def text : Mark → List Char
  | figure n => n.text
  | op o => o.text.toList
  | strictEq => ['=', '=', '=']
  | strictNe => ['!', '=', '=']

/-- The token that a mark stands for. A third sign means nothing. -/
def token : Mark → Token
  | figure n => .number n.text n.value
  | op o => .op o
  | strictEq => .op .eq
  | strictNe => .op .ne

variable {m m' : Mark} {s : List Char} {found : Token × Nat}

theorem text_ne_nil (m : Mark) : m.text ≠ [] := by
  cases m with
  | figure n => exact n.text_ne_nil
  | op o => exact op_ne_nil o
  | strictEq | strictNe => exact List.cons_ne_nil _ _

theorem text_not_isBlank (m : Mark) : ∀ c ∈ m.text, Text.isBlank c = false := by
  cases m with
  | figure n => exact fun c hc => not_isBlank_of_joins (n.text_joins c hc)
  | op o => exact op_not_isBlank o
  | strictEq | strictNe => simp [text, Text.isBlank, Text.inRanges, Text.blankRanges]

theorem scan_of_numeral (h : numeral s ≠ []) :
    scan? s = some (.number (numeral s) (Token.valueOf (numeral s)), (numeral s).length) := by
  unfold scan?
  split
  · exact absurd ‹_› h
  · rfl

theorem scan_reaches (h : m.text <+: s) :
    ∃ found, scan? s = some found ∧ m.text.length ≤ found.2 := by
  obtain ⟨s, rfl⟩ := h
  cases m with
  | figure n =>
    have hstarts := n.prefix_numeral s
    have hne : numeral (n.text ++ s) ≠ [] := fun hnil =>
      n.text_ne_nil (List.prefix_nil.1 (hnil ▸ hstarts))
    exact ⟨_, scan_of_numeral hne, hstarts.length_le⟩
  | op o =>
    -- A third sign of equality, or a second character, may be taken besides.
    have hscan : ∃ found, Op.scan? (o.text.toList ++ s) = some found ∧
        o.text.toList.length ≤ found.2 := by
      cases o with
      | eq =>
        change ∃ found, Op.scan? ('=' :: '=' :: s) = some found ∧ 2 ≤ found.2
        rw [opScan_equality (.head _), if_pos List.head?_cons]
        refine ⟨_, rfl, ?_⟩
        dsimp only
        split_ifs <;> omega
      | ne =>
        change ∃ found, Op.scan? ('!' :: '=' :: s) = some found ∧ 2 ≤ found.2
        rw [opScan_equality (.tail _ (.head _)), if_pos List.head?_cons]
        refine ⟨_, rfl, ?_⟩
        dsimp only
        split_ifs <;> omega
      | not =>
        change ∃ found, Op.scan? ('!' :: s) = some found ∧ 1 ≤ found.2
        rw [opScan_equality (.tail _ (.head _))]
        split_ifs <;> exact ⟨_, rfl, by decide⟩
      | lt =>
        change ∃ found, Op.scan? ('<' :: s) = some found ∧ 1 ≤ found.2
        rw [opScan_pair (.head _)]
        split_ifs <;> exact ⟨_, rfl, by decide⟩
      | gt =>
        change ∃ found, Op.scan? ('>' :: s) = some found ∧ 1 ≤ found.2
        rw [opScan_pair (.tail _ (.head _))]
        split_ifs <;> exact ⟨_, rfl, by decide⟩
      | _ => exact ⟨_, rfl, le_rfl⟩
    obtain ⟨found, hfound, hlength⟩ := hscan
    refine ⟨(.op found.1, found.2), ?_, hlength⟩
    change scan? (o.text.toList ++ s) = _
    rw [scan?, numeral_op]
    dsimp only
    rw [hfound]
    rfl
  | strictEq | strictNe => exact ⟨_, rfl, le_rfl⟩

theorem exists_of_scan (h : scan? s = some found) :
    ∃ m : Mark, m.text <+: s ∧ found = (m.token, m.text.length) := by
  by_cases hnumeral : numeral s = []
  · unfold scan? at h
    rw [hnumeral] at h
    obtain ⟨⟨o, n⟩, hscan, rfl⟩ := Option.map_eq_some_iff.1 h
    unfold Op.scan? at hscan
    split at hscan
    case h_1 => cases hscan; exact ⟨strictEq, List.prefix_append _ _, rfl⟩
    case h_2 => cases hscan; exact ⟨strictNe, List.prefix_append _ _, rfl⟩
    case h_18 => cases hscan
    all_goals cases hscan; exact ⟨op _, List.prefix_append _ _, rfl⟩
  · obtain ⟨n, hn⟩ := Figure.exists_of_numeral hnumeral
    rw [scan_of_numeral hnumeral] at h
    cases h
    have hstarts : n.text <+: s := hn ▸ numeral_starts s
    refine ⟨figure n, hstarts, ?_⟩
    rw [token, ← n.valueOf_text, text, hn]

theorem scan_text (m : Mark) : scan? m.text = some (m.token, m.text.length) := by
  cases m with
  | figure n =>
    have hstarts := n.prefix_numeral []
    rw [List.append_nil] at hstarts
    have hnumeral : numeral n.text = n.text :=
      (numeral_starts n.text).eq_of_length_le hstarts.length_le
    have hne : numeral n.text ≠ [] := fun hnil => n.text_ne_nil (hnumeral.symm.trans hnil)
    rw [text, scan_of_numeral hne, hnumeral, n.valueOf_text]
    rfl
  | op o =>
    have hscan := scan_op o (s := []) (by simp)
    rwa [List.append_nil] at hscan
  | strictEq | strictNe => rfl

theorem token_of_text (h : m.text = m'.text) : m.token = m'.token := by
  have hscan := m.scan_text
  rw [h, m'.scan_text] at hscan
  exact (Prod.mk.inj (Option.some.inj hscan)).1.symm

/-- A mark stands at the start of a text, and no longer one does. -/
structure Starts (m : Mark) (s : List Char) : Prop where
  here : m.text <+: s
  longest : ∀ m' : Mark, m'.text <+: s → m'.text.length ≤ m.text.length

theorem starts_of_scan (h : scan? s = some found) :
    ∃ m : Mark, m.Starts s ∧ found = (m.token, m.text.length) := by
  obtain ⟨m, hhere, rfl⟩ := exists_of_scan h
  refine ⟨m, ⟨hhere, fun m' hm' => ?_⟩, rfl⟩
  obtain ⟨found', hscan, hle⟩ := scan_reaches hm'
  cases h.symm.trans hscan
  exact hle

theorem Starts.scan (h : m.Starts s) : scan? s = some (m.token, m.text.length) := by
  obtain ⟨found, hscan, -⟩ := scan_reaches h.here
  obtain ⟨m', hm', rfl⟩ := starts_of_scan hscan
  have hlength : m.text.length = m'.text.length :=
    le_antisymm (hm'.longest m h.here) (h.longest m' hm'.here)
  have htext : m.text = m'.text :=
    (List.prefix_of_prefix_length_le h.here hm'.here hlength.le).eq_of_length hlength
  rw [hscan, token_of_text htext, hlength]

theorem scan_none_iff : scan? s = none ↔ ∀ m : Mark, ¬m.text <+: s := by
  refine ⟨fun h m hm => ?_, fun h => ?_⟩
  · obtain ⟨found, hscan, -⟩ := scan_reaches hm
    rw [h] at hscan
    cases hscan
  · cases hscan : scan? s with
    | none => rfl
    | some found =>
      obtain ⟨m, hm, -⟩ := exists_of_scan hscan
      exact absurd hm (h m)

end Mark
end Gameroom.Expression
