import Gameroom.Proofs.Expression.Marks

/-!
How a text is read: white space is passed over, and the longest mark behind it is the next token. So
nothing but white space is lost, and white space does nothing but keep marks apart.
-/

namespace Gameroom.Expression
open Token

/-- A text is read as marks, one after the other, up to a rest. -/
inductive Reads : List Mark → List Char → List Char → Prop
  | done (s : List Char) : Reads [] s s
  | mark {m : Mark} {ms : List Mark} {blanks s rest : List Char}
      (hblanks : ∀ c ∈ blanks, Text.isBlank c) (hstarts : m.Starts (m.text ++ s))
      (hrest : Reads ms s rest) : Reads (m :: ms) (blanks ++ (m.text ++ s)) rest

/-- A rest has something behind its white space, and no mark stands there. -/
def Stuck (rest : List Char) : Prop :=
  ∃ blanks c tail, rest = blanks ++ c :: tail ∧ (∀ c ∈ blanks, Text.isBlank c) ∧
    Text.isBlank c = false ∧ ∀ m : Mark, ¬m.text <+: c :: tail

variable {m : Mark} {ms : List Mark} {s rest w tail : List Char}

/-! ### Readings -/

theorem Reads.splits (h : Reads ms s rest) : ∃ front, s = front ++ rest := by
  induction h with
  | done => exact ⟨[], rfl⟩
  | @mark m _ blanks _ _ _ _ _ ih =>
    obtain ⟨front, rfl⟩ := ih
    exact ⟨blanks ++ (m.text ++ front), by simp⟩

theorem Reads.length_le (h : Reads ms s rest) : ms.length ≤ s.length := by
  induction h with
  | done => exact Nat.zero_le _
  | @mark m _ _ _ _ _ _ _ ih =>
    have hpos := List.length_pos_iff.2 m.text_ne_nil
    simp only [List.length_cons, List.length_append]
    omega

theorem Reads.filter (h : Reads ms s rest) : s.filter (!Text.isBlank ·) =
    ms.flatMap Mark.text ++ rest.filter (!Text.isBlank ·) := by
  induction h with
  | done => rfl
  | @mark m _ blanks _ _ hblanks _ _ ih =>
    have hnone : blanks.filter (!Text.isBlank ·) = [] := by simpa using hblanks
    have hall : m.text.filter (!Text.isBlank ·) = m.text := by simpa using m.text_not_isBlank
    rw [List.filter_append, List.filter_append, hnone, hall, ih, List.nil_append,
      List.flatMap_cons, List.append_assoc]

theorem exists_reads (s : List Char) : ∃ ms rest, Reads ms s rest ∧
    ((∀ c ∈ rest, Text.isBlank c) ∨ Stuck rest) := by
  -- The induction is on the length of the text: every mark takes a character at least.
  induction hlength : s.length using Nat.strong_induction_on generalizing s with
  | _ length ih =>
    subst hlength
    have hsplit := List.takeWhile_append_dropWhile (p := Text.isBlank) (l := s)
    have hblanks : ∀ c ∈ s.takeWhile Text.isBlank, Text.isBlank c :=
      fun c hc => List.mem_takeWhile_imp hc
    cases hdrop : s.dropWhile Text.isBlank with
    | nil => exact ⟨[], s, .done s, .inl (List.dropWhile_eq_nil_iff.1 hdrop)⟩
    | cons c tail =>
      have hc : Text.isBlank c = false := by
        have hhead := List.head?_dropWhile_not Text.isBlank s
        simpa [hdrop] using hhead
      rw [hdrop] at hsplit
      cases hscan : scan? (c :: tail) with
      | none =>
        exact ⟨[], s, .done s,
          .inr ⟨_, c, tail, hsplit.symm, hblanks, hc, Mark.scan_none_iff.1 hscan⟩⟩
      | some found =>
        obtain ⟨m, hstarts, -⟩ := Mark.starts_of_scan hscan
        obtain ⟨s', hs'⟩ := hstarts.here
        rw [← hs'] at hstarts hsplit
        have hshorter : s'.length < s.length := by
          have hpos := List.length_pos_iff.2 m.text_ne_nil
          rw [← hsplit, List.length_append, List.length_append]
          omega
        obtain ⟨ms, rest, hreads, hrest⟩ := ih _ hshorter s' rfl
        refine ⟨m :: ms, rest, ?_, hrest⟩
        rw [← hsplit]
        exact .mark hblanks hstarts hreads

theorem Reads.trimEnd (h : Reads ms s rest) : Reads ms (Text.trimEnd s) (Text.trimEnd rest) := by
  induction h with
  | done s => exact .done _
  | @mark m _ blanks s _ hblanks hstarts _ ih =>
    have htext : Text.trimEnd (m.text ++ s) = m.text ++ Text.trimEnd s :=
      trimEnd_append m.text_not_isBlank s
    have hne : Text.trimEnd (m.text ++ s) ≠ [] := by simp [htext, m.text_ne_nil]
    rw [trimEnd_append_of_ne_nil hne, htext]
    refine .mark hblanks ⟨List.prefix_append _ _, fun m' hm' => hstarts.longest m' ?_⟩ ih
    exact hm'.trans ((List.prefix_append_right_inj _).2 (trimEnd_starts s))

/-! ### What is returned -/

theorem scanAll_of_reads (h : Reads ms s rest) (position : Nat) : scanAll position s =
    (scanAll (position + (s.length - rest.length)) rest).map (ms.map Mark.token ++ ·) := by
  induction h generalizing position with
  | done s =>
    rw [Nat.sub_self, Nat.add_zero]
    cases scanAll position s <;> rfl
  | @mark m ms blanks s rest hblanks hstarts hrest ih =>
    have hhead : ∀ c ∈ (m.text ++ s).head?, Text.isBlank c = false := by
      rw [List.head?_append_of_ne_nil _ m.text_ne_nil]
      exact fun c hc => m.text_not_isBlank c (List.mem_of_head? hc)
    have hscan : scan? ((blanks ++ (m.text ++ s)).dropWhile Text.isBlank) =
        some (m.token, m.text.length) := by
      rw [Text.dropWhile_run hblanks hhead]
      exact hstarts.scan
    have hdrop : (blanks ++ (m.text ++ s)).drop (blanks.length + m.text.length) = s := by
      rw [← List.append_assoc, List.drop_left' (by simp)]
    obtain ⟨front, rfl⟩ := hrest.splits
    have hposition : position + (blanks.length + m.text.length) +
        ((front ++ rest).length - rest.length) =
        position + ((blanks ++ (m.text ++ (front ++ rest))).length - rest.length) := by
      simp only [List.length_append]
      omega
    rw [scanAll_found (by simp [m.text_ne_nil]) hscan, Text.takeWhile_run hblanks hhead, hdrop, ih,
      hposition]
    cases scanAll _ rest <;> rfl

theorem tokenize_of_reads (h : Reads ms s rest) (hrest : ∀ c ∈ rest, Text.isBlank c) :
    tokenize s = .ok (ms.map Mark.token) := by
  have hnil : Text.trimEnd rest = [] := by
    rw [Text.trimEnd, List.dropWhile_eq_nil_iff.2 fun c hc => hrest c (List.mem_reverse.1 hc),
      List.reverse_nil]
  have hreads := h.trimEnd
  rw [hnil] at hreads
  rw [tokenize, scanAll_of_reads hreads, scanAll]
  exact congrArg Except.ok (List.append_nil _)

theorem tokenize_of_stuck (h : Reads ms s rest) (hrest : Stuck rest) :
    tokenize s = .error (s.length - rest.length, Text.trimEnd rest) := by
  obtain ⟨front, rfl⟩ := h.splits
  obtain ⟨blanks, c, tail, rfl, hblanks, hc, hnone⟩ := hrest
  have hcut := trimEnd_cons hc tail
  have htrim : Text.trimEnd (blanks ++ c :: tail) = blanks ++ c :: Text.trimEnd tail := by
    rw [trimEnd_append_of_ne_nil (by simp [hcut]), hcut]
  have hfront : Text.trimEnd (front ++ (blanks ++ c :: tail)) =
      front ++ (blanks ++ c :: Text.trimEnd tail) := by
    rw [trimEnd_append_of_ne_nil (by simp [htrim]), htrim]
  have hreads := h.trimEnd
  rw [htrim, hfront] at hreads
  have hhead : ∀ x ∈ (c :: Text.trimEnd tail).head?, Text.isBlank x = false := by simpa using hc
  have hscan : scan? ((blanks ++ c :: Text.trimEnd tail).dropWhile Text.isBlank) = none := by
    rw [Text.dropWhile_run hblanks hhead, Mark.scan_none_iff]
    exact fun m hm => hnone m (hm.trans (List.cons_prefix_cons.2 ⟨rfl, trimEnd_starts tail⟩))
  rw [tokenize, hfront, scanAll_of_reads hreads, scanAll_stuck (by simp) hscan, htrim]
  simp only [List.length_append, Nat.add_sub_cancel, Nat.zero_add]
  rfl

/-! ### Marks with white space between them -/

/-- A text lays out marks: white space, and then each mark with the white space behind it, of which
there is some between two marks. -/
structure Lays (lead : List Char) (ms : List (Mark × List Char)) (s : List Char) : Prop where
  text : s = lead ++ ms.flatMap fun m => m.1.text ++ m.2
  lead : ∀ c ∈ lead, Text.isBlank c
  gaps : ∀ m ∈ ms, ∀ c ∈ m.2, Text.isBlank c
  apart : ∀ m ∈ ms.dropLast, m.2 ≠ []

theorem prefix_of_gap (hw : ∀ c ∈ w, Text.isBlank c = false)
    (htail : ∀ c ∈ tail.head?, Text.isBlank c) (h : w <+: s ++ tail) : w <+: s := by
  rcases List.prefix_or_prefix_of_prefix h (List.prefix_append s tail) with hs | ⟨more, rfl⟩
  · exact hs
  · cases more with
    | nil => simp
    | cons c more =>
      obtain ⟨rest, hrest⟩ := (List.prefix_append_right_inj s).1 h
      have hblank : Text.isBlank c := htail c (by rw [← hrest]; rfl)
      rw [hw c (by simp)] at hblank
      cases hblank

theorem Lays.reads {lead : List Char} {ms : List (Mark × List Char)} (h : Lays lead ms s) :
    ∃ rest, Reads (ms.map Prod.fst) s rest ∧ ∀ c ∈ rest, Text.isBlank c := by
  induction ms generalizing lead s with
  | nil => exact ⟨s, .done s, by simpa [h.text] using h.lead⟩
  | cons first ms ih =>
    obtain ⟨m, gap⟩ := first
    have hgaps := List.forall_mem_cons.1 h.gaps
    have happart : ∀ m ∈ ms.dropLast, m.2 ≠ [] := by
      intro m hm
      cases ms with
      | nil => cases hm
      | cons => exact h.apart m (List.mem_cons_of_mem _ hm)
    have hhead : ∀ c ∈ (gap ++ ms.flatMap fun m => m.1.text ++ m.2).head?, Text.isBlank c := by
      cases hgap : gap with
      | cons c gap => simpa [hgap] using hgaps.1 c (by simp [hgap])
      | nil =>
        cases ms with
        | nil => simp
        | cons => exact absurd hgap (h.apart (m, gap) List.mem_cons_self)
    obtain ⟨rest, hreads, hrest⟩ := ih ⟨rfl, hgaps.1, hgaps.2, happart⟩
    refine ⟨rest, ?_, hrest⟩
    rw [h.text, List.flatMap_cons, List.append_assoc]
    refine .mark h.lead ⟨List.prefix_append _ _, fun m' hm' => ?_⟩ hreads
    exact (prefix_of_gap m'.text_not_isBlank hhead hm').length_le

/-- The tokens of a text as a parser comes to them: behind the last one it finds none. -/
def Token.stream (s : List Char) : Except (Nat × List Char) (List (Option Token)) :=
  (tokenize s).map fun ts => ts.map some ++ [none]

/-- Nothing is lost but white space. Marks with white space between them are returned as their
tokens and then the end, with the float nearest to each number; what is returned are the tokens of
marks that make up the text but for its white space; and every text is read up to its end or refused
where no mark stands. -/
theorem marks_kept :
    (∀ n : Figure, Reading.float? n.text = some n.value) ∧
      (∀ lead ms s, Lays lead ms s →
        Token.stream s = .ok (ms.map (fun m => some m.1.token) ++ [none])) ∧
      (∀ s ts, tokenize s = .ok ts → ∃ ms rest, Reads ms s rest ∧ (∀ c ∈ rest, Text.isBlank c) ∧
        ts = ms.map Mark.token ∧ ms.flatMap Mark.text = s.filter (!Text.isBlank ·)) ∧
      ∀ s, (∃ ts, tokenize s = .ok ts ∧ ts.length ≤ s.length) ∨
        ∃ ms rest, Reads ms s rest ∧ Stuck rest ∧
          tokenize s = .error (s.length - rest.length, Text.trimEnd rest) := by
  refine ⟨Figure.float_text, fun lead ms s hlays => ?_, fun s ts hts => ?_, fun s => ?_⟩
  · obtain ⟨rest, hreads, hrest⟩ := hlays.reads
    rw [Token.stream, tokenize_of_reads hreads hrest]
    simp [Except.map]
  · obtain ⟨ms, rest, hreads, hblank | hstuck⟩ := exists_reads s
    · have hfilter := hreads.filter
      have hnone : rest.filter (!Text.isBlank ·) = [] := by simpa using hblank
      rw [hnone, List.append_nil] at hfilter
      rw [tokenize_of_reads hreads hblank] at hts
      exact ⟨ms, rest, hreads, hblank, (Except.ok.inj hts).symm, hfilter.symm⟩
    · rw [tokenize_of_stuck hreads hstuck] at hts
      cases hts
  · obtain ⟨ms, rest, hreads, hblank | hstuck⟩ := exists_reads s
    · exact .inl ⟨_, tokenize_of_reads hreads hblank, by simpa using hreads.length_le⟩
    · exact .inr ⟨ms, rest, hreads, hstuck, tokenize_of_stuck hreads hstuck⟩

def arabicHalf : Figure where
  whole := ['٠']
  fraction? := some ['٥']
  digits := by simpa using show Text.isDigit '٠' ∧ Text.isDigit '٥' by decide +kernel
  nonempty := by decide

theorem marks_kept_half :
    Lays [' '] [(.figure arabicHalf, ['\t']), (.strictNe, [' ', ' ']), (.op .lt, [])]
        " ٠.٥\t!==  <".toList ∧
      Token.stream " ٠.٥\t!==  <".toList =
        .ok [some (.number ['٠', '.', '٥'] 0.5), some (.op .ne), some (.op .lt), none] ∧
      ∃ ms rest, Reads ms "1 =<".toList rest ∧ Stuck rest ∧ tokenize "1 =<".toList =
        .error ("1 =<".toList.length - rest.length, Text.trimEnd rest) := by
  have hlays : Lays [' '] [(.figure arabicHalf, ['\t']), (.strictNe, [' ', ' ']), (.op .lt, [])]
      " ٠.٥\t!==  <".toList := by
    have hblanks : Text.isBlank '\t' ∧ Text.isBlank ' ' := by decide
    exact ⟨rfl, by simp [hblanks], by simp [hblanks], by decide⟩
  have hvalue : arabicHalf.value = 0.5 := by
    have hfloat : Reading.float? arabicHalf.text = some 0.5 := by decide +kernel
    exact Option.some.inj ((marks_kept.1 arabicHalf).symm.trans hfloat)
  have hstream := marks_kept.2.1 _ _ _ hlays
  rw [← hvalue]
  refine ⟨hlays, hstream, ?_⟩
  rcases marks_kept.2.2.2 "1 =<".toList with ⟨ts, hts, -⟩ | hrefused
  · have hfault : (tokenize "1 =<".toList).isOk = false := by decide +kernel
    rw [hts] at hfault
    cases hfault
  · exact hrefused

end Gameroom.Expression
