import Gameroom.Proofs.Expression.Comparing
import Gameroom.Proofs.Expression.Shown

/-!
A variable in a condition. Its text has at most 17 places, so a number nearer to zero than one ten
thousandth may lose its last digits; every other number is read back as it is.
-/

open Float.Model.UnpackedFloat

namespace Gameroom.Expression
open Grid

variable {x : Float} {s : Sign} {m : Nat} {e : Int} {hm : 0 < m}

theorem Numeral.spot_value_iff {n : Numeral} (hu : x.toModel.unpack = .finite s m e hm)
    (hpos : 0 < n.shown) (hlength : n.fraction.length ≤ 2048) :
    spot n.value = |spot x| ↔ Near m (e + 1074).toNat (n.shown * 2 ^ depth) := by
  refine spot_floatOfDecimal_iff hu (Nat.pos_of_ne_zero fun hzero => ?_) hlength
  rw [Numeral.shown, hzero, Nat.cast_zero, zero_div] at hpos
  exact lt_irrefl _ hpos

/-! ### The three ways to write a float -/

theorem floatChars_eq (hu : x.toModel.unpack = .finite s m e hm) :
    floatChars x =
      FloatFormat.signed s (FloatFormat.plain.layout (Binade.ofParts m e).shortest) := by
  rw [floatChars, FloatFormat.write, hu]
  rfl

theorem mem_floatChars_iff (hu : x.toModel.unpack = .finite s m e hm) :
    'e' ∈ floatChars x ↔ (Binade.ofParts m e).shortest.value < 10 ^ (-4 : Int) ∨
      10 ^ (16 : Int) ≤ (Binade.ofParts m e).shortest.value := by
  obtain ⟨he, -⟩ := canonical_of_unpack hu
  have hpos := (Binade.near_shortest hm he).pos hm
  have hdigits : 0 < (Binade.ofParts m e).shortest.digits := by
    by_contra hzero
    rw [Decimal.value, Nat.eq_zero_of_not_pos hzero, Nat.cast_zero, zero_mul] at hpos
    exact lt_irrefl _ hpos
  have hsign : 'e' ∈ floatChars x ↔
      'e' ∈ FloatFormat.plain.layout (Binade.ofParts m e).shortest := by
    rw [floatChars_eq hu]
    cases s <;> simp [FloatFormat.signed]
  rw [hsign, mem_layout_iff rfl, ← not_lt (b := 10 ^ (16 : Int)), Decimal.value_lt_iff hdigits,
    Decimal.value_lt_iff hdigits]
  simp only [FloatFormat.plain]
  omega

theorem plain_literal (hu : x.toModel.unpack = .finite s m e hm) (h : 'e' ∉ floatChars x) :
    ∃ n : Numeral, floatLiteral x = FloatFormat.signed s n.text ∧ spot n.value = |spot x| := by
  obtain ⟨he, -⟩ := canonical_of_unpack hu
  have hnear := Binade.near_shortest hm he
  have hexponent := Binade.exponent_shortest (m := m) he
  have hliteral : floatLiteral x = floatChars x := by
    rw [floatLiteral, if_neg (by simpa using h)]
  have hsign : 'e' ∉ FloatFormat.plain.layout (Binade.ofParts m e).shortest := by
    rw [floatChars_eq hu] at h
    exact fun hmem => h (mem_signed hmem)
  rw [mem_layout_iff rfl, not_not] at hsign
  obtain ⟨n, htext, hshown, hlength⟩ := layout_numeral rfl hsign
  rw [← hshown] at hnear
  exact ⟨n, by rw [hliteral, floatChars_eq hu, htext],
    (n.spot_value_iff hu (hnear.pos hm) (by omega)).2 hnear⟩

theorem long_literal (hu : x.toModel.unpack = .finite s m e hm) (h : 'e' ∈ floatChars x) :
    ∃ n : Numeral, floatLiteral x = FloatFormat.signed s n.text ∧ n.fraction.length ≤ 17 ∧
      n.shown = ((Binade.mk m e false).roundedTo (-(17 : Nat))).digits / 10 ^ 17 := by
  rw [floatLiteral, if_pos (by simpa using h)]
  exact fixed_numeral (by decide) hu

theorem large_literal (hu : x.toModel.unpack = .finite s m e hm) (h : 'e' ∈ floatChars x)
    (hlarge : 10 ^ (16 : Int) ≤ (Binade.ofParts m e).shortest.value) :
    ∃ n : Numeral, floatLiteral x = FloatFormat.signed s n.text ∧ spot n.value = |spot x| := by
  obtain ⟨he, hbits, -⟩ := canonical_of_unpack hu
  obtain ⟨n, htext, hlength, hshown⟩ := long_literal hu h
  have hclose := (Binade.near_shortest hm he).close he
  -- So large a float counts quarters at the least, so 17 places hold it exactly.
  have hwhole : -17 ≤ e := by
    by_contra hless
    have hpow : (2 : ℚ) ^ e ≤ 2 ^ (-18 : Int) := zpow_le_zpow_right₀ (by norm_num) (by omega)
    have hmost : (m : ℚ) + 1 ≤ 2 ^ 53 := by exact_mod_cast hbits
    have hsmall : ((m : ℚ) + 1) * 2 ^ e ≤ 2 ^ 53 * 2 ^ (-18 : Int) :=
      mul_le_mul hmost hpow (by positivity) (by positivity)
    have hunit : (0 : ℚ) < 2 ^ e := by positivity
    have := neg_le_abs ((m : ℚ) * 2 ^ e - (Binade.ofParts m e).shortest.value)
    norm_num at hsmall hlarge
    linarith
  obtain ⟨j, rfl⟩ : ∃ j : Nat, e = j - 17 := ⟨(e + 17).toNat, by omega⟩
  have hexact : (m * 2 ^ (j - 17 : Int) * 10 ^ 17 : ℚ) = (m * 2 ^ j * 5 ^ 17 : Nat) := by
    rw [zpow_sub₀ two_ne_zero, zpow_natCast]
    norm_num
    ring
  have hdigits := digits_roundedTo 17 (by rw [hexact, sub_self]; norm_num)
  have hvalue : n.shown = m * 2 ^ (j - 17 : Int) := by
    rw [hshown, hdigits, ← hexact, mul_div_assoc, div_self (by norm_num), mul_one]
  refine ⟨n, htext, (n.spot_value_iff hu ?_ (by omega)).2 ?_⟩
  · rw [hvalue]
    have : (0 : ℚ) < m := by exact_mod_cast hm
    positivity
  · rw [hvalue, mul_assoc, ← units_eq he]
    exact Binade.near_self

/-! ### Small floats -/

theorem unpack_tenThousandth :
    (1e-4 : Float).toModel.unpack = .finite .positive 7378697629483821 (-66) (by decide) := rfl

theorem tenThousandth_le : |spot (1e-4 : Float)| ≤ unity := by
  have hdepth : 66 + (-66 + 1074 : Int).toNat = depth := rfl
  rw [(spot_of_unpack unpack_tenThousandth).2, Nat.cast_le, unity, ← hdepth, pow_add]
  exact Nat.mul_le_mul_right _ (by decide)

theorem shortest_tenThousandth : (Binade.ofParts 7378697629483821 (-66)).shortest = ⟨1, -4⟩ :=
  rfl

theorem shortest_lt_iff (hu : x.toModel.unpack = .finite s m e hm) :
    (Binade.ofParts m e).shortest.value < 10 ^ (-4 : Int) ↔ |spot x| < |spot (1e-4 : Float)| := by
  obtain ⟨he, hfit⟩ := canonical_of_unpack hu
  obtain ⟨he', hfit'⟩ := canonical_of_unpack unpack_tenThousandth
  have hnear := Binade.near_shortest hm he
  have hnear' := Binade.near_shortest (m := 7378697629483821) (by decide) he'
  have hvalue : Decimal.value ⟨1, -4⟩ = 10 ^ (-4 : Int) := by simp [Decimal.value]
  have hdepth : (0 : ℚ) ≤ 2 ^ depth := by positivity
  rw [shortest_tenThousandth, hvalue] at hnear'
  rw [(spot_of_unpack hu).2, (spot_of_unpack unpack_tenThousandth).2, Nat.cast_lt]
  constructor
  · intro hlt
    refine lt_of_le_of_ne (hnear.mono hfit hfit' hnear' (mul_le_mul_of_nonneg_right hlt.le hdepth))
      fun heq => ?_
    obtain ⟨rfl, hw⟩ := fit_inj hfit hfit' heq
    obtain rfl : e = -66 := by omega
    rw [shortest_tenThousandth, hvalue] at hlt
    exact lt_irrefl _ hlt
  · intro hlt
    by_contra hge
    exact hlt.not_ge (hnear'.mono hfit' hfit hnear
      (mul_le_mul_of_nonneg_right (not_lt.1 hge) hdepth))

theorem spot_floatOfDecimal_zero (k : Int) : spot (floatOfDecimal 0 k) = 0 := spot_zero

/-- The last place of a small float is far below the last of 17 places. -/
theorem unit_lt_lastPlace (hu : x.toModel.unpack = .finite s m e hm)
    (hsmall : (Binade.ofParts m e).shortest.value < 10 ^ (-4 : Int)) :
    (2 : ℚ) ^ e * 10 ^ 17 < 1 := by
  obtain ⟨he, -, hbits⟩ := canonical_of_unpack hu
  rcases hbits with hbits | hleast
  · have hmost : (2 : ℚ) ^ 52 ≤ m := by exact_mod_cast hbits
    have hunit : (0 : ℚ) < 2 ^ e := by positivity
    have hscaled := mul_le_mul_of_nonneg_right hmost hunit.le
    have hclose := (Binade.near_shortest hm he).close he
    have := le_abs_self ((m : ℚ) * 2 ^ e - (Binade.ofParts m e).shortest.value)
    norm_num at hsmall
    linarith
  · have hpow : (2 : ℚ) ^ e ≤ 2 ^ (-60 : Int) := zpow_le_zpow_right₀ (by norm_num) (by omega)
    norm_num at hpow
    linarith

theorem small_literal (hu : x.toModel.unpack = .finite s m e hm) (h : 'e' ∈ floatChars x)
    (hsmall : (Binade.ofParts m e).shortest.value < 10 ^ (-4 : Int)) :
    ∃ n : Numeral, floatLiteral x = FloatFormat.signed s n.text ∧
      (spot n.value = |spot x| ↔ ∃ k : Nat, spot (floatOfDecimal k (-17)) = |spot x|) := by
  have he := (canonical_of_unpack hu).1
  obtain ⟨n, htext, hlength, hshown⟩ := long_literal hu h
  obtain ⟨units, hunits⟩ : ∃ units,
    ((Binade.mk m e false).roundedTo (-(17 : Nat))).digits = units := ⟨_, rfl⟩
  rw [hunits] at hshown
  have hpos : 0 < |spot x| := by
    rw [(spot_of_unpack hu).2]
    exact_mod_cast Nat.mul_pos hm (Nat.two_pow_pos _)
  have hfine := unit_lt_lastPlace hu hsmall
  have hread {k : Nat} (hk : 0 < k) : spot (floatOfDecimal k (-17)) = |spot x| ↔
      Near m (e + 1074).toNat (k / 10 ^ 17 * 2 ^ depth) :=
    spot_floatOfDecimal_iff (k := 17) hu hk (by decide)
  have hsame : 0 < units →
      (spot n.value = |spot x| ↔ spot (floatOfDecimal units (-17)) = |spot x|) := by
    intro hk
    have hk' : (0 : ℚ) < units := by exact_mod_cast hk
    rw [hread hk, n.spot_value_iff hu (by rw [hshown]; positivity) (by omega), hshown]
  refine ⟨n, htext, fun heq => ⟨units, ?_⟩, ?_⟩
  · refine (hsame (Nat.pos_of_ne_zero fun hzero => ?_)).1 heq
    rw [hzero, Nat.cast_zero, zero_div, Numeral.shown, div_eq_zero_iff] at hshown
    have hnumerator := Nat.cast_eq_zero.1 (hshown.resolve_right (by positivity))
    rw [Numeral.value, hnumerator, spot_floatOfDecimal_zero] at heq
    omega
  · rintro ⟨k, hk⟩
    have hkpos : 0 < k := by
      refine Nat.pos_of_ne_zero fun hzero => ?_
      rw [hzero, spot_floatOfDecimal_zero] at hk
      omega
    have hclose := ((hread hkpos).1 hk).close he
    have hk' : units = k := by
      rw [← hunits]
      refine digits_roundedTo 17 ?_
      have hten : (0 : ℚ) < 10 ^ 17 := by positivity
      have hscale : (m * 2 ^ e * 10 ^ 17 - k : ℚ) = (m * 2 ^ e - k / 10 ^ 17) * 10 ^ 17 := by
        field_simp
      rw [hscale, abs_mul, abs_of_pos hten, ← mul_assoc]
      exact (mul_le_mul_of_nonneg_right hclose hten.le).trans_lt hfine
    subst hk'
    exact (hsame hkpos).2 hk

/-! ### Numbers that are read back -/

/-- Numbers that conditions see as they are: those not below one ten thousandth, and those that are
nearest to a number of 17 places. -/
def ReadBack (x : Float) : Prop :=
  1e-4 ≤ x.abs ∨ ∃ n : Nat, floatOfDecimal n (-17) == x.abs

theorem readBack_iff (hx : x.isFinite) :
    ReadBack x ↔ |spot (1e-4 : Float)| ≤ |spot x| ∨
      ∃ n : Nat, spot (floatOfDecimal n (-17)) = |spot x| := by
  have habs : x.abs.isNaN = false := (isNaN_abs x).trans (notNaN_of_finite hx)
  obtain ⟨hfin, hspot⟩ := spot_of_unpack unpack_tenThousandth
  have hpos : 0 ≤ spot (1e-4 : Float) := by decide
  rw [ReadBack, Grid.le_iff (notNaN_of_finite hfin) habs, spot_abs, abs_of_nonneg hpos]
  refine or_congr_right (exists_congr fun n => ?_)
  have hnan : (floatOfDecimal n (-17)).isNaN = false := notNaN_floatOfDecimal n 17
  rw [beq_iff hnan habs, spot_abs]

/-- A float other than zero is written as a decimal, and read back exactly if 17 places are enough
for it. -/
theorem floatLiteral_read (hu : x.toModel.unpack = .finite s m e hm) :
    ∃ n : Numeral, floatLiteral x = FloatFormat.signed s n.text ∧
      (spot n.value = |spot x| ↔ ReadBack x) := by
  rw [readBack_iff (spot_of_unpack hu).1, ← not_lt, ← shortest_lt_iff hu]
  have hmem := mem_floatChars_iff hu
  by_cases h : 'e' ∈ floatChars x
  · by_cases hsmall : (Binade.ofParts m e).shortest.value < 10 ^ (-4 : Int)
    · obtain ⟨n, htext, hread⟩ := small_literal hu h hsmall
      exact ⟨n, htext, hread.trans (or_iff_right (not_not_intro hsmall)).symm⟩
    · obtain ⟨n, htext, hread⟩ := large_literal hu h ((hmem.1 h).resolve_left hsmall)
      exact ⟨n, htext, iff_of_true hread (.inl hsmall)⟩
  · obtain ⟨n, htext, hread⟩ := plain_literal hu h
    exact ⟨n, htext, iff_of_true hread (.inl fun hsmall => h (hmem.2 (.inl hsmall)))⟩

theorem exists_parts (hx : x.isFinite) (hne : spot x ≠ 0) :
    ∃ s m e, ∃ hm : 0 < m, x.toModel.unpack = .finite s m e hm := by
  have hfin := (counts hx).finite
  cases hu : x.toModel.unpack with
  | notANumber | infinity s =>
    rw [hu] at hfin
    cases hfin
  | zero s => exact absurd (spot_of_zero hu).2 hne
  | finite s m e hm => exact ⟨s, m, e, hm, rfl⟩

def signedFloat : Sign → Float → Float
  | .negative, y => -y
  | .positive, y => y

/-- A text is a decimal, perhaps with a minus sign in front, and means a float if this is read
back. -/
def Tells (l : List Char) (x : Float) : Prop :=
  ∃ s, ∃ n : Numeral, l = FloatFormat.signed s n.text ∧ (signedFloat s n.value == x ↔ ReadBack x)

theorem tells_of_spot {l : List Char} {n : Numeral} (hx : x.isFinite)
    (hsign : spot x = s.apply (spot x).natAbs) (hl : l = FloatFormat.signed s n.text)
    (hread : spot n.value = |spot x| ↔ ReadBack x) : Tells l x := by
  have hn : n.value.isNaN = false := notNaN_floatOfDecimal _ _
  have hnan := notNaN_of_finite hx
  rw [Int.abs_eq_natAbs] at hread
  refine ⟨s, n, hl, ?_⟩
  rw [← hread]
  generalize (spot x).natAbs = k at hsign
  cases s with
  | positive =>
    rw [signedFloat, beq_iff hn hnan, hsign]
    rfl
  | negative =>
    rw [signedFloat, beq_iff ((isNaN_neg _).trans hn) hnan, spot_neg, hsign]
    exact neg_inj

theorem intChars_tells {i : Int} (hi : i.natAbs < 10 ^ 15) (hx : IsWhole x i) :
    Tells (intChars i) x := by
  have hunity := unity_pos
  have hspot : |spot x| = (i.natAbs : Int) * unity := by
    rw [hx.spot, abs_mul, Int.abs_eq_natAbs, Nat.abs_cast]
  have hvalue : spot (Numeral.ofNat i.natAbs).value = |spot x| := by
    rw [Numeral.value_ofNat, hspot]
    exact spot_whole (by rw [Int.natAbs_natCast]; omega)
  -- Zero aside, a whole number is far above the least size that 17 places tell.
  have hback : ReadBack x := by
    rw [readBack_iff hx.finite]
    rcases eq_or_ne i 0 with rfl | hne
    · exact .inr ⟨0, by rw [spot_floatOfDecimal_zero, hx.spot, zero_mul, abs_zero]⟩
    · refine .inl (tenThousandth_le.trans ?_)
      rw [hspot]
      exact le_mul_of_one_le_left (by omega) (by omega)
  have hnatAbs : (spot x).natAbs = i.natAbs * unity := by rw [hx.spot, Int.natAbs_mul]; rfl
  rw [intChars]
  split_ifs with hneg
  · refine tells_of_spot (s := .negative) hx.finite ?_ ?_ (iff_of_true hvalue hback)
    · rw [hnatAbs, hx.spot]
      simp only [Sign.apply]
      push_cast
      rw [abs_of_neg hneg]
      ring
    · rw [Numeral.text_ofNat]
      rfl
  · refine tells_of_spot (s := .positive) hx.finite ?_ ?_ (iff_of_true hvalue hback)
    · rw [hnatAbs, hx.spot]
      simp only [Sign.apply]
      push_cast
      rw [abs_of_nonneg (by omega)]
    · rw [Numeral.text_ofNat]
      rfl

theorem floatLiteral_tells (hx : x.isFinite) (hne : spot x ≠ 0) : Tells (floatLiteral x) x := by
  obtain ⟨s, m, e, hm, hu⟩ := exists_parts hx hne
  obtain ⟨n, htext, hread⟩ := floatLiteral_read hu
  refine tells_of_spot (spot_of_unpack hu).1 ?_ htext hread
  rw [spot, hu]
  cases s <;> simp [place, units, Sign.apply]

theorem isWhole_of_equal {i : Int} (hx : x.isFinite) (h : (Number.float x).equal (.int i)) :
    IsWhole x i := by
  refine ⟨hx, ?_⟩
  rw [Number.equal_iff_rank (show (Number.float x).isNaN = false from notNaN_of_finite hx) rfl,
    Number.rank, Number.rank, onLine_of_lt (abs_spot_lt hx)] at h
  exact_mod_cast h

theorem plain_of_zero {v : Scaled} (hx : x.isFinite) (hzero : spot x = 0)
    (hv : Scaled.ofFloat? x = some v) : ((Number.float x).equal (.int v.truncate) &&
      (Number.int v.truncate.natAbs).lt (.float plainLimit)) = true := by
  obtain ⟨s, hu⟩ := unpack_of_spot_zero hx hzero
  obtain rfl : v = ⟨0, 0⟩ := by
    rw [Scaled.ofFloat?, hu] at hv
    exact (Option.some.inj hv).symm
  rw [Bool.and_eq_true]
  exact ⟨(Number.isZero_iff (notNaN_of_finite hx)).2 hzero, below_plainLimit.2 (by decide)⟩

theorem numberLiteral_tells {v : Number} (hx : v.toFloat = .ok x) (hfin : x.isFinite) :
    ∃ l, numberLiteral v = .ok l ∧ Tells l x := by
  cases v with
  | int i =>
    obtain rfl := Number.eq_of_toFloat hx
    rw [numberLiteral]
    split_ifs with hplain
    · rw [below_plainLimit] at hplain
      exact ⟨_, rfl, intChars_tells hplain (.ofInt (by omega))⟩
    · rw [below_plainLimit] at hplain
      rw [hx]
      refine ⟨_, rfl, floatLiteral_tells hfin ?_⟩
      rw [Ne, spot_floatOfInt_eq_zero]
      omega
  | float y =>
    obtain rfl : y = x := Except.ok.inj hx
    obtain ⟨v, hv, -, -⟩ := exists_value hfin
    simp only [numberLiteral, hv]
    split_ifs with hwhole
    · obtain ⟨hequal, hplain⟩ := Bool.and_eq_true_iff.1 hwhole
      rw [below_plainLimit] at hplain
      exact ⟨_, rfl, intChars_tells hplain (isWhole_of_equal hfin hequal)⟩
    · exact ⟨_, rfl, floatLiteral_tells hfin fun hzero => hwhole (plain_of_zero hfin hzero hv)⟩

/-! ### A name alone -/

variable {name literal : List Char}

theorem replaceFrom_skipped (hname : name ≠ []) (joined : Bool) (rest : List Char) :
    replaceFrom name literal rest.length joined rest = [] := by
  induction rest generalizing joined with
  | nil => exact if_neg fun h => hname h.1
  | cons c rest ih => exact ih (joins c)

theorem replace_self (hname : name ≠ []) : replace name literal name = literal := by
  obtain ⟨c, rest, rfl⟩ := List.exists_cons_of_ne_nil hname
  have hstarts : startsWith (c :: rest) (c :: rest) = true := by
    rw [startsWith, List.drop_length]
    simp
  have hskipped : replaceFrom (c :: rest) literal rest.length (joins c) rest = [] :=
    replaceFrom_skipped hname (joins c) rest
  rw [replace, replaceFrom, hstarts]
  simpa using hskipped

theorem valueOf_signed (s : Sign) (n : Numeral) :
    allowed (FloatFormat.signed s n.text) ∧
      valueOf (FloatFormat.signed s n.text) = .ok (.number (signedFloat s n.value)) := by
  have hplain : Context.Plain ⟨[], []⟩ := ⟨by simp, by simp⟩
  have hliteral (level : Nat) : (Tree.literal n).Prints level 0 [.numeral n] := .literal n level
  have hread {ls : List Lexeme} {l : List Char} {t : Tree} {depth : Nat} (hl : Spaced 0 ls l)
      (hprints : t.Prints 0 depth ls) (hclosed : t.Closed ⟨[], []⟩) (hbare : Bare ls)
      (htokens : tokens ⟨[], []⟩ ls = ls.map Lexeme.token) (hdepth : depth < maxNesting) :
      allowed l ∧ valueOf l = t.outcome (Context.environment ⟨[], []⟩) := by
    refine ⟨hl.allowed hbare hprints.phrase.nonempty, ?_⟩
    rw [valueOf, tokenize_spaced hl hprints.phrase.chain hbare, ← htokens]
    exact parse_tokens hplain hclosed hprints hdepth
  have hspaced : Spaced 0 [.numeral n] n.text := by
    simpa [Lexeme.text] using Spaced.cons 0 (.numeral n) (Spaced.nil : Spaced 0 [] [])
  cases s with
  | positive => exact hread hspaced (hliteral 0) trivial (by simp [Bare]) rfl (by decide)
  | negative =>
    exact hread (.cons 0 (.op .sub) hspaced) (.signed .minus 0 (hliteral 6)) trivial
      (by simp [Bare]) rfl (by decide)

/-- A variable alone in a condition comes to a number, and to its own value exactly if this is not
below one ten thousandth or 17 places tell it. -/
theorem variable_evaluates_iff {name : String} {v : Number} {x : Float}
    (hname : name.toList.all Text.isBlank = false) (hx : v.toFloat = .ok x) (hfinite : x.isFinite) :
    ∃ y, number? ⟨[], [(name, .number v)]⟩ (.text name) = .ok (some y) ∧
      (y == x ↔ 1e-4 ≤ x.abs ∨ ∃ n : Nat, floatOfDecimal n (-17) == x.abs) := by
  obtain ⟨l, hl, s, n, rfl, hread⟩ := numberLiteral_tells hx hfinite
  refine ⟨signedFloat s n.value, ?_, hread⟩
  have hne : name.toList ≠ [] := by
    intro hnil
    rw [hnil] at hname
    cases hname
  obtain ⟨hallowed, hvalue⟩ := valueOf_signed s n
  have hnames : Context.names ⟨[], [(name, .number v)]⟩ = [(name, .number v)] := rfl
  have hevaluate : evaluate ⟨[], [(name, .number v)]⟩ name.toList =
      .ok (.ok (.number (signedFloat s n.value))) := by
    have hliteral : Expression.literal (.number v) = .ok (FloatFormat.signed s n.text) := hl
    simp only [evaluate, hname, substitute, hnames, replaceAll, hliteral, replace_self hne,
      hallowed, hvalue, Bool.false_eq_true, if_false, if_true]
  rw [number?, evaluateJson, hevaluate]
  rfl

/-- One tenth is read back. -/
theorem tenth_evaluates : ∃ y,
    number? ⟨[], [("x", .number (.float 0.1))]⟩ (.text "x") = .ok (some y) ∧ y == 0.1 := by
  obtain ⟨y, hy, hread⟩ := variable_evaluates_iff (by decide : "x".toList.all Text.isBlank = false)
    (rfl : (Number.float 0.1).toFloat = .ok 0.1) rfl
  exact ⟨y, hy, hread.2 (.inl (by decide))⟩

/-- A variable that 17 places do not tell from zero comes to zero. -/
theorem tiny_evaluates_to_zero :
    (Number.float 1e-20).isFinite = .ok true ∧
      number? ⟨[], [("x", .number (.float 1e-20))]⟩ (.text "x") = .ok (some 0) ∧
      ((0 : Float) == 1e-20) = false := by
  decide +kernel

end Gameroom.Expression
