import Gameroom.Proofs.Expression.Literals
import Gameroom.Proofs.Expression.Meaning
import Gameroom.Proofs.Random.Unit

/-!
A name in a condition compared with a number. Whatever other names the context has, the value of the
name is put in and nothing else, and a number that is not negative is put in as a decimal.
-/

open Float.Model (Format UnpackedFloat)
open Float.Model.UnpackedFloat

namespace Gameroom.Expression

/-! ### Decimals -/

theorem no_point {s : List Char} (h : ∀ c ∈ s, c.isDigit) : s.count '.' = 0 := by
  rw [List.count_eq_zero]
  intro hc
  cases h '.' hc

namespace IsFigure
variable {s : List Char}

theorem numeral (h : IsFigure s) (hpoints : s.count '.' ≤ 1) : ∃ n : Numeral, n.text = s := by
  have hsplit := List.takeWhile_append_dropWhile (p := Char.isDigit) (l := s)
  have hwhole : ∀ c ∈ s.takeWhile Char.isDigit, c.isDigit := fun c hc => List.mem_takeWhile_imp hc
  cases hrest : s.dropWhile Char.isDigit with
  | nil =>
    rw [hrest, List.append_nil] at hsplit
    rw [hsplit] at hwhole
    exact ⟨⟨s, none, by simpa using hwhole, by simpa using h.ne_nil⟩, List.append_nil s⟩
  | cons c rest =>
    have hc : c.isDigit = false := by
      have := List.dropWhile_get_zero_not Char.isDigit s (by rw [hrest]; simp)
      simpa [hrest] using this
    have hmem : c ∈ s := by
      rw [← hsplit, hrest]
      simp
    -- Behind the leading digits stands the only point, so digits are all that follows it.
    obtain rfl : c = '.' := (h.plain c hmem).resolve_left (by simp [hc])
    rw [hrest] at hsplit
    rw [← hsplit, List.count_append, no_point hwhole, List.count_cons_self] at hpoints
    have hfraction : ∀ c ∈ rest, c.isDigit := by
      intro c' hc'
      refine (h.plain c' (by rw [← hsplit]; simp [hc'])).resolve_right ?_
      rintro rfl
      have := List.count_pos_iff.2 hc'
      omega
    have hne : s.takeWhile Char.isDigit ++ rest ≠ [] := by
      obtain ⟨first, hfirst, hdigit⟩ := h.head
      intro hnil
      rw [List.append_eq_nil_iff] at hnil
      rw [hnil.1, hnil.2] at hsplit
      rw [← hsplit] at hfirst
      cases hfirst
      cases hdigit
    exact ⟨⟨s.takeWhile Char.isDigit, some rest, fun c hc =>
      (List.mem_append.1 hc).elim (hwhole c) (hfraction c), hne⟩, hsplit⟩

end IsFigure

theorem layout_points {f : FloatFormat} {d : Decimal} (h : 'e' ∉ f.layout d) :
    (f.layout d).count '.' ≤ 1 := by
  have hzeros (n : Nat) := no_point (isDigit_zeros n)
  have hdigits := no_point (isDigit_digitsOf (n := d.digits))
  have htake (n : Nat) := no_point fun c hc =>
    isDigit_digitsOf (n := d.digits) c (List.mem_of_mem_take (i := n) hc)
  have hdrop (n : Nat) := no_point fun c hc =>
    isDigit_digitsOf (n := d.digits) c (List.mem_of_mem_drop (i := n) hc)
  unfold FloatFormat.layout at h ⊢
  dsimp only at h ⊢
  split_ifs at h ⊢ with hrange hpoint hwhole hpointZero
  · simp [hzeros, hdigits]
  · simp [hzeros, hdigits]
  · simp [hzeros, hdigits]
  · simp [htake, hdrop]
  · exfalso
    split at h
    · rename_i hnil
      exact digitsOf_ne_nil _ hnil
    · exact h (List.mem_cons_of_mem _ (mem_exponent f _))
    · exact h (List.mem_cons_of_mem _ (List.mem_cons_of_mem _
        (List.mem_append_right _ (mem_exponent f _))))

theorem trimZeros_sublist (s : List Char) : (trimZeros s).Sublist s := by
  rw [trimZeros, ← List.reverse_sublist, List.reverse_reverse]
  exact ((List.dropWhile_sublist _).trans (List.dropWhile_sublist _))

theorem floatLiteral_numeral {x : Float} {m : Nat} {e : Int} {hm : 0 < m}
    (hx : x.toModel.unpack = .finite .positive m e hm) :
    ∃ n : Numeral, n.text = floatLiteral x := by
  have hshows : Shows (floatLiteral x) := floatLiteral_shows (by
    change x.toModel.unpack.isFinite = true
    rw [hx]
    rfl)
  have hfloat : floatChars x = FloatFormat.plain.layout
      (Binade.shortest ⟨m, e, m == Nat.pow 2 52 && decide (-1074 < e)⟩) := by
    rw [floatChars, FloatFormat.write, hx]
    rfl
  obtain ⟨s, whole, fraction, hfixed, hsign, hne, hwhole, hfraction⟩ := fixedChars_eq 16 x
  obtain rfl := hsign _ _ _ _ hx
  -- Neither form has a sign or a second point: with 17 places, or the shortest digits that tell it.
  have hplain : '-' ∉ floatLiteral x ∧ (floatLiteral x).count '.' ≤ 1 := by
    unfold floatLiteral
    dsimp only
    split_ifs with he
    · have hsub := trimZeros_sublist (fixedChars longPlaces x)
      rw [show fixedChars longPlaces x = whole ++ '.' :: fraction from hfixed] at hsub ⊢
      refine ⟨fun hminus => ?_, (hsub.count_le '.').trans ?_⟩
      · have hmem := hsub.subset hminus
        rw [List.mem_append, List.mem_cons] at hmem
        rcases hmem with hmem | hmem | hmem
        · cases hwhole _ hmem
        · cases hmem
        · cases hfraction _ hmem
      · rw [List.count_append, List.count_cons_self, no_point hwhole, no_point hfraction]
    · rw [hfloat] at he ⊢
      rw [List.contains_iff_mem] at he
      refine ⟨fun hminus => ?_, layout_points he⟩
      rcases (layout_isFigure he).plain _ hminus with hminus | hminus <;> cases hminus
  generalize floatLiteral x = text at hshows hplain
  cases hshows with
  | bare h => exact h.numeral hplain.2
  | negative h => exact absurd List.mem_cons_self hplain.1

theorem literal_natural {n : Nat} (hn : n < 10 ^ 15) :
    literal (.number (.int n)) = .ok (Numeral.ofNat n).text := by
  have hplain : IsPlain (.number (.int n)) := hn
  rw [literal_eq hplain, spelled, if_neg (by omega)]
  simp [Lexeme.text]

theorem literal_numeral {n : Number} (hlow : (Number.int 0).le n)
    (hhigh : n.le (.int (10 ^ 14))) : ∃ m : Numeral, literal (.number n) = .ok m.text := by
  cases n with
  | int i =>
    have hi := Number.int_le_int.1 hlow
    have hi' := Number.int_le_int.1 hhigh
    obtain ⟨k, rfl⟩ := Int.eq_ofNat_of_zero_le hi
    exact ⟨_, literal_natural (by omega)⟩
  | float x =>
    have hx := Number.finite_of_between hlow hhigh
    rw [Number.int_le_float hx, zero_mul] at hlow
    obtain ⟨v, hv, -, -⟩ := Grid.exists_value hx
    simp only [literal, numberLiteral, hv]
    split_ifs with hwhole
    · obtain ⟨hequal, hsmall⟩ := Bool.and_eq_true_iff.1 hwhole
      rw [Number.equal_iff_rank (show (Number.float x).isNaN = false from
        Grid.notNaN_of_finite hx) rfl, Number.rank, Number.rank,
        Grid.onLine_of_lt (Grid.abs_spot_lt hx)] at hequal
      have hunits : Grid.spot x = v.truncate * Grid.unity := by exact_mod_cast hequal
      have hnonneg : 0 ≤ v.truncate := by
        have := Grid.unity_pos
        rw [hunits] at hlow
        exact nonneg_of_mul_nonneg_left hlow (by exact_mod_cast this)
      refine ⟨Numeral.ofNat v.truncate.natAbs, ?_⟩
      rw [Numeral.text_ofNat, intChars, if_neg (by omega)]
    -- What is not written as a whole number is above zero: zero would have been.
    · rcases hlow.lt_or_eq with hpos | hzero
      · obtain ⟨m, e, hm, hu, -, -⟩ := Grid.exists_mantissa hx hpos
        obtain ⟨n, hn⟩ := floatLiteral_numeral hu
        exact ⟨n, congrArg Except.ok hn.symm⟩
      · obtain ⟨sign, hu⟩ := Grid.unpack_of_spot_zero hx hzero.symm
        have hv0 : v = ⟨0, 0⟩ := by
          rw [Scaled.ofFloat?, hu] at hv
          exact (Option.some.inj hv).symm
        refine absurd ?_ hwhole
        rw [hv0, Bool.and_eq_true]
        exact ⟨(Number.isZero_iff (Grid.notNaN_of_finite hx)).2 hzero.symm,
          below_plainLimit.2 (by decide)⟩

/-! ### One name among others -/

variable {names : List (String × Json)} {name text : String} {value : Json} {m n : Numeral}
  {k : Nat} {ls : List Lexeme} {s : List Char}

def isName (name : String) : Bool :=
  name.toList.head?.any (!Text.isDigit ·) && name.toList.all fun c => c.isAlphanum || c == '_'

theorem isIdentifier_of_isName {name : String} (h : isName name) :
    IsIdentifier name := by
  unfold isName at h
  obtain ⟨hhead, hall⟩ := Bool.and_eq_true_iff.1 h
  cases hname : name.toList with
  | nil =>
    rw [hname] at hhead
    cases hhead
  | cons c rest =>
    rw [hname] at hhead hall
    refine ⟨c, rest, hname, by simpa using hhead, fun c' hc' => ?_⟩
    have hplain := List.all_eq_true.1 hall c' hc'
    have hascii : c'.toNat < 128 := by
      simp only [Char.isAlphanum, Char.isAlpha, Char.isUpper, Char.isLower, Char.isDigit,
        Bool.or_eq_true, Bool.and_eq_true, decide_eq_true_eq, beq_iff_eq, ge_iff_le,
        UInt32.le_iff_toNat_le] at hplain
      have htoNat : c'.toNat = c'.val.toNat := rfl
      rcases hplain with ((⟨-, hle⟩ | ⟨-, hle⟩) | ⟨-, hle⟩) | rfl
      · exact htoNat ▸ hle.trans_lt (by decide)
      · exact htoNat ▸ hle.trans_lt (by decide)
      · exact htoNat ▸ hle.trans_lt (by decide)
      · decide
    rw [Text.isWord_of_ascii hascii]
    exact hplain

/-- Names that can be replaced, with values that can be written. -/
def Writable (names : List (String × Json)) : Prop :=
  ∀ e ∈ names, Nameable e.1.toList ∧ ∃ l, literal e.2 = .ok l

theorem flatMap_replaced_absent {ms : List Lexeme} (h : .word name ∉ ls) :
    ls.flatMap (Lexeme.replaced name ms) = ls := by
  induction ls with
  | nil => rfl
  | cons l ls ih =>
    rw [List.mem_cons, not_or] at h
    rw [List.flatMap_cons, ih h.2]
    cases l with
    | numeral | op => rfl
    | word w =>
      rw [Lexeme.replaced, if_neg fun hw => h.1 (by rw [hw])]
      rfl

theorem replace_absent (hname : Nameable name.toList) (l : List Char) (h : Spaced k ls s)
    (hchain : ls.IsChain Lexeme.Follows) (hwords : ∀ w, .word w ∈ ls → Replaceable w.toList)
    (habsent : .word name ∉ ls) : Spaced k ls (replace name.toList l s) := by
  have hspaced := replaceFrom_spaced hname.replaceable hname.ne_numeral
    (List.cons_ne_nil (Lexeme.word (String.ofList l)) []) h hchain hwords false (by simp)
  rw [flatMap_replaced_absent habsent] at hspaced
  simpa [Lexeme.text, replace] using hspaced

theorem replaceAll_absent (hnames : Writable names) (h : Spaced k ls s)
    (hchain : ls.IsChain Lexeme.Follows) (hwords : ∀ w, .word w ∈ ls → Replaceable w.toList)
    (habsent : ∀ e ∈ names, .word e.1 ∉ ls) :
    ∃ s', replaceAll names s = .ok s' ∧ Spaced k ls s' := by
  induction names generalizing s with
  | nil => exact ⟨s, rfl, h⟩
  | cons first rest ih =>
    obtain ⟨⟨hname, l, hl⟩, hrest⟩ := List.forall_mem_cons.1 hnames
    rw [List.forall_mem_cons] at habsent
    obtain ⟨s', hs', hspaced⟩ := ih hrest (replace_absent hname l h hchain hwords habsent.1)
      habsent.2
    refine ⟨s', ?_, hspaced⟩
    simp only [replaceAll, hl]
    exact hs'

theorem replaceAll_only (hnames : Writable names) (hvalue : Table.get? names name = some value)
    (hliteral : literal value = .ok m.text) (h : Spaced k ls s)
    (hchain : ls.IsChain Lexeme.Follows) (honly : ∀ w, .word w ∈ ls → w = name) :
    ∃ s', replaceAll names s = .ok s' ∧
      Spaced k (ls.flatMap (Lexeme.replaced name [.numeral m])) s' := by
  have hreplaceable : Replaceable name.toList :=
    (hnames _ (Table.mem_of_get? hvalue)).1.replaceable
  have hwords (w : String) (hw : .word w ∈ ls) : Replaceable w.toList := honly w hw ▸ hreplaceable
  induction names generalizing s with
  | nil => cases hvalue
  | cons first rest ih =>
    obtain ⟨other, found⟩ := first
    obtain ⟨⟨hname, l, hl⟩, hrest⟩ := List.forall_mem_cons.1 hnames
    rw [Table.get?] at hvalue
    split_ifs at hvalue with hother
    · cases hvalue
      subst hother
      have hphrase : Phrase [.numeral m] := phrase_single _ trivial rfl
      have hspaced := replaceFrom_spaced hname.replaceable hname.ne_numeral
        (List.cons_ne_nil (Lexeme.numeral m) []) h hchain hwords false (by simp)
      -- Its decimal takes the place of the only name, so the names that follow find none.
      have hbare : Bare (ls.flatMap (Lexeme.replaced other [.numeral m])) := by
        intro w hw
        obtain ⟨l', hl', hw⟩ := List.mem_flatMap.1 hw
        cases l' with
        | numeral | op => simp [Lexeme.replaced] at hw
        | word v => simp [Lexeme.replaced, honly v hl'] at hw
      obtain ⟨s', hs', hspaced'⟩ := replaceAll_absent hrest hspaced
        (isChain_replaced hphrase hchain) (fun w hw => absurd hw (hbare w))
        fun e _ => hbare e.1
      refine ⟨s', ?_, hspaced'⟩
      simp only [replaceAll, hliteral]
      simpa [Lexeme.text, replace] using hs'
    · have habsent : .word other ∉ ls := fun hw => hother (honly other hw)
      obtain ⟨s', hs', hspaced⟩ := ih hrest hvalue
        (replace_absent hname l h hchain hwords habsent)
      refine ⟨s', ?_, hspaced⟩
      simp only [replaceAll, hl]
      exact hs'

def compared (l : Lexeme) (o : Infix) (n : Numeral) : List Lexeme := [l, .op o.op, .numeral n]

theorem phrase_compared {l : Lexeme} (hstarts : l.starts) (hcloses : l.closes) (o : Infix)
    (n : Numeral) : Phrase (compared l o n) :=
  phrase_joined o (phrase_single l hstarts hcloses) (phrase_single (.numeral n) trivial rfl)

theorem evaluate_compared {context : Context} (hnames : Writable context.names)
    (hvalue : Table.get? context.names name = some value) (hliteral : literal value = .ok m.text)
    (o : Infix) (h : Spaced k (compared (.word name) o n) s) :
    evaluate context s = .ok (Value.binary o.op (.number m.value) (.number n.value)) := by
  have hname := (hnames _ (Table.mem_of_get? hvalue)).1
  have honly (w : String) (hw : .word w ∈ compared (.word name) o n) : w = name := by
    simpa [compared] using hw
  have hphrase := phrase_compared (l := .word name) trivial rfl o n
  obtain ⟨s', hs', hspaced⟩ := replaceAll_only hnames hvalue hliteral h hphrase.chain honly
  have hls : (compared (.word name) o n).flatMap (Lexeme.replaced name [.numeral m]) =
      compared (.numeral m) o n := by simp [compared, Lexeme.replaced]
  rw [hls] at hspaced
  have hprints : (Tree.joined o (.literal m) (.literal n)).Prints 0 0 (compared (.numeral m) o n) :=
    .joined (.literal m _) (.literal n _) (Nat.zero_le _)
  have hbare : Bare (compared (.numeral m) o n) := by simp [Bare, compared]
  have hplain : Context.Plain ⟨[], []⟩ := ⟨by simp, by simp⟩
  have hparse := parse_tokens hplain (t := .joined o (.literal m) (.literal n)) ⟨trivial, trivial⟩
    hprints (by decide)
  have hread : valueOf s' = Value.binary o.op (.number m.value) (.number n.value) := by
    rw [valueOf, tokenize_spaced hspaced hprints.phrase.chain hbare, binary_op]
    exact hparse
  have hblank : s.all Text.isBlank = false :=
    h.not_blank hphrase.nonempty fun w hw => honly w hw ▸ hname.replaceable
  rw [evaluate, hblank, substitute, hs']
  simp only [Bool.false_eq_true, if_false, hspaced.allowed hbare (by simp [compared]), if_true,
    hread]

theorem condition_compared {context : Context} (hnames : Writable context.names)
    (hvalue : Table.get? context.names name = some value) (hliteral : literal value = .ok m.text)
    (o : Infix) (h : Spaced k (compared (.word name) o n) text.toList) :
    condition context (.text text) =
      .ok (((o.apply (.number m.value) (.number n.value)).map Value.isTrue).getD false) := by
  rw [condition, evaluateJson, evaluate_compared hnames hvalue hliteral o h, binary_op]
  cases o.apply (.number m.value) (.number n.value) <;> rfl

end Gameroom.Expression
