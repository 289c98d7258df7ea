import Gameroom.Proofs.Expression.Literals
import Gameroom.Proofs.Number.Shortest

/-!
The numbers that texts show. A decimal written without an exponent shows itself, and a float written
with a set number of decimals shows what it is rounded to.
-/

open Float.Model.UnpackedFloat

namespace Gameroom.Expression

namespace Numeral

def shown (n : Numeral) : ℚ :=
  Nat.ofDigitChars 10 (n.whole ++ n.fraction) 0 / 10 ^ n.fraction.length

end Numeral

/-! ### Decimals without an exponent -/

theorem ofDigitChars_digitsOf (n : Nat) : Nat.ofDigitChars 10 (Decimal.digitsOf n) 0 = n :=
  Nat.ofDigitChars_ten_toDigits

theorem ofDigitChars_zeros (k n : Nat) :
    Nat.ofDigitChars 10 (List.replicate k '0' ++ Decimal.digitsOf n) 0 = n := by
  rw [Nat.ofDigitChars_append, Nat.ofDigitChars_replicate_zero, Nat.mul_zero, ofDigitChars_digitsOf]

theorem numeral_of_digits (whole fraction : List Char) (hwhole : ∀ c ∈ whole, c.isDigit)
    (hfraction : ∀ c ∈ fraction, c.isDigit) (hne : whole ≠ []) :
    ∃ n : Numeral, n.text = whole ++ '.' :: fraction ∧ n.fraction.length = fraction.length ∧
      n.shown = Nat.ofDigitChars 10 (whole ++ fraction) 0 / 10 ^ fraction.length :=
  ⟨⟨whole, some fraction, fun c hc => (List.mem_append.1 hc).elim (hwhole c) (hfraction c),
    List.append_ne_nil_of_left_ne_nil hne _⟩, rfl, rfl, rfl⟩

variable {f : FloatFormat} {d : Decimal}

theorem value_of_exponent_nonpos {k : Nat} (h : d.exponent = -k) : d.value = d.digits / 10 ^ k := by
  rw [Decimal.value, h, zpow_neg, zpow_natCast, div_eq_mul_inv]

theorem layout_numeral (hf : f.pointZero) (h : f.lowest ≤ d.point - 1 ∧ d.point - 1 ≤ f.highest) :
    ∃ n : Numeral, n.text = f.layout d ∧ n.shown = d.value ∧
      (n.fraction.length : Int) ≤ max 1 (-d.exponent) := by
  have hdigits := isDigit_digitsOf (n := d.digits)
  obtain ⟨k, hk⟩ : ∃ k, (Decimal.digitsOf d.digits).length = k := ⟨_, rfl⟩
  have hpoint : d.point = k + d.exponent := by rw [← hk]; rfl
  simp only [FloatFormat.layout, if_pos h, if_pos hf]
  -- The point stands before all digits, behind them or between two of them.
  split_ifs with hfront hwhole
  · obtain ⟨n, htext, hlength, hshown⟩ := numeral_of_digits ['0']
      (List.replicate (-d.point).toNat '0' ++ Decimal.digitsOf d.digits)
      (isDigit_zeros 1) (fun c hc => (List.mem_append.1 hc).elim (isDigit_zeros _ c) (hdigits c))
      (by simp)
    rw [List.length_append, List.length_replicate, hk] at hlength hshown
    refine ⟨n, htext, ?_, by omega⟩
    rw [hshown, value_of_exponent_nonpos (k := (-d.point).toNat + k) (by omega)]
    have hvalue := ofDigitChars_zeros ((-d.point).toNat + 1) d.digits
    rw [List.replicate_succ] at hvalue
    exact congrArg (fun n : Nat => (n : ℚ) / _) hvalue
  · have hcount : (d.exponent.toNat : Int) = d.exponent := by omega
    have hzeros : d.point.toNat - (Decimal.digitsOf d.digits).length = d.exponent.toNat := by omega
    obtain ⟨n, htext, hlength, hshown⟩ := numeral_of_digits
      (Decimal.digitsOf d.digits ++ List.replicate d.exponent.toNat '0') ['0']
      (fun c hc => (List.mem_append.1 hc).elim (hdigits c) (isDigit_zeros _ c)) (isDigit_zeros 1)
      (List.append_ne_nil_of_left_ne_nil (digitsOf_ne_nil _) _)
    refine ⟨n, by rw [htext, hzeros], ?_, by rw [hlength]; exact le_max_left _ _⟩
    have hdigit : Nat.ofDigitChars 10 ['0'] (10 ^ d.exponent.toNat * d.digits) =
        10 * (10 ^ d.exponent.toNat * d.digits) := rfl
    rw [hshown, Nat.ofDigitChars_append, Nat.ofDigitChars_append, ofDigitChars_digitsOf,
      Nat.ofDigitChars_replicate_zero, hdigit, Decimal.value, ← hcount, zpow_natCast,
      Int.toNat_natCast]
    push_cast
    simp only [List.length_singleton, pow_one]
    ring
  · have hsplit := List.take_append_drop d.point.toNat (Decimal.digitsOf d.digits)
    obtain ⟨n, htext, hlength, hshown⟩ := numeral_of_digits
      ((Decimal.digitsOf d.digits).take d.point.toNat)
      ((Decimal.digitsOf d.digits).drop d.point.toNat)
      (fun c hc => hdigits c (List.mem_of_mem_take hc))
      (fun c hc => hdigits c (List.mem_of_mem_drop hc)) (by
        rw [Ne, List.take_eq_nil_iff, not_or]
        exact ⟨by omega, digitsOf_ne_nil _⟩)
    rw [List.length_drop, hk] at hlength hshown
    refine ⟨n, htext, ?_, by omega⟩
    rw [hshown, hsplit, ofDigitChars_digitsOf,
      value_of_exponent_nonpos (k := k - d.point.toNat) (by omega)]

theorem mem_layout_iff (hf : f.pointZero) :
    'e' ∈ f.layout d ↔ ¬(f.lowest ≤ d.point - 1 ∧ d.point - 1 ≤ f.highest) := by
  constructor
  · intro hmem hrange
    obtain ⟨n, htext, -, -⟩ := layout_numeral hf hrange
    rw [← htext] at hmem
    have := n.text_plain 'e' hmem
    simp at this
  · intro hrange
    simp only [FloatFormat.layout, if_neg hrange]
    split
    · rename_i hnil
      exact absurd hnil (digitsOf_ne_nil _)
    · exact List.mem_cons_of_mem _ (mem_exponent f _)
    · exact List.mem_cons_of_mem _ (List.mem_cons_of_mem _
        (List.mem_append_right _ (mem_exponent f _)))

/-! ### A set number of decimals -/

theorem exists_zeros (s : List Char) :
    ∃ kept j, s = kept ++ List.replicate j '0' ∧ ∀ c ∈ kept.getLast?, c ≠ '0' := by
  induction s using List.reverseRecOn with
  | nil => exact ⟨[], 0, rfl, by simp⟩
  | append_singleton s c ih =>
    by_cases hc : c = '0'
    · obtain ⟨kept, j, hs, hlast⟩ := ih
      exact ⟨kept, j + 1, by rw [hs, hc, List.replicate_succ', List.append_assoc], hlast⟩
    · exact ⟨s ++ [c], 0, by simp, by simpa using hc⟩

theorem trimZeros_eq (front : List Char) {kept : List Char} (j : Nat)
    (hfront : ∀ c ∈ front.getLast?, c ≠ '.') (hkept : ∀ c ∈ kept, c.isDigit)
    (hlast : ∀ c ∈ kept.getLast?, c ≠ '0') :
    trimZeros (front ++ '.' :: (kept ++ List.replicate j '0')) =
      front ++ if kept = [] then [] else '.' :: kept := by
  have hreverse : (front ++ '.' :: (kept ++ List.replicate j '0')).reverse =
      List.replicate j '0' ++ (kept.reverse ++ '.' :: front.reverse) := by simp
  have hzeros : ∀ c ∈ List.replicate j '0', decide (c = '0') = true := by simp
  rw [trimZeros, hreverse, List.dropWhile_append_of_pos hzeros]
  rcases List.eq_nil_or_concat kept with rfl | ⟨rest, c, rfl⟩
  · have hstop : front.reverse.dropWhile (fun c => decide (c = '.')) = front.reverse := by
      rcases List.eq_nil_or_concat front with rfl | ⟨rest, c, rfl⟩
      · rfl
      · simpa using hfront
    simp [hstop]
  · have hzero : c ≠ '0' := hlast c (by simp)
    have hpoint : c ≠ '.' := by
      rintro rfl
      cases hkept '.' (by simp)
    simp [hzero, hpoint]

/-- Without the zeros at its end, and the point if that is then the last, a text shows what it
showed before. -/
theorem trimmed_numeral (whole fraction : List Char) (hwhole : ∀ c ∈ whole, c.isDigit)
    (hfraction : ∀ c ∈ fraction, c.isDigit) (hne : whole ≠ []) :
    ∃ n : Numeral, (∀ s, trimZeros (FloatFormat.signed s (whole ++ '.' :: fraction)) =
        FloatFormat.signed s n.text) ∧ n.fraction.length ≤ fraction.length ∧
      n.shown = Nat.ofDigitChars 10 (whole ++ fraction) 0 / 10 ^ fraction.length := by
  obtain ⟨kept, j, rfl, hlast⟩ := exists_zeros fraction
  have hkept : ∀ c ∈ kept, c.isDigit := fun c hc => hfraction c (List.mem_append_left _ hc)
  have hpoint : ∀ c ∈ whole.getLast?, c ≠ '.' := by
    rintro c hc rfl
    cases hwhole '.' (List.mem_of_mem_getLast? hc)
  have htrim (s : Sign) : trimZeros (FloatFormat.signed s
      (whole ++ '.' :: (kept ++ List.replicate j '0'))) =
        FloatFormat.signed s (whole ++ if kept = [] then [] else '.' :: kept) := by
    cases s with
    | positive => exact trimZeros_eq whole j hpoint hkept hlast
    | negative =>
      refine trimZeros_eq ('-' :: whole) j ?_ hkept hlast
      rwa [List.getLast?_cons_of_ne_nil hne]
  -- Each zero at the end stands for a factor of ten above and below.
  have hvalue : (Nat.ofDigitChars 10 (whole ++ (kept ++ List.replicate j '0')) 0 : ℚ) /
      10 ^ (kept ++ List.replicate j '0').length =
        Nat.ofDigitChars 10 (whole ++ kept) 0 / 10 ^ kept.length := by
    rw [← List.append_assoc, Nat.ofDigitChars_append (l := whole ++ kept),
      Nat.ofDigitChars_replicate_zero,
      List.length_append, List.length_replicate]
    push_cast
    field_simp
    ring
  rw [hvalue]
  by_cases hnil : kept = []
  · subst hnil
    refine ⟨⟨whole, none, by simpa using hwhole, by simpa using hne⟩, htrim, Nat.zero_le _, rfl⟩
  · obtain ⟨n, htext, hlength, hshown⟩ := numeral_of_digits whole kept hwhole hkept hne
    refine ⟨n, fun s => ?_, ?_, hshown⟩
    · rw [htrim, htext, if_neg hnil]
    · rw [hlength, List.length_append]
      exact Nat.le_add_right _ _

variable {x : Float} {s : Sign} {m : Nat} {e : Int} {hm : 0 < m}

/-- A float written with a set number of decimals, without the zeros at its end, shows what it is
rounded to. -/
theorem fixed_numeral {places : Nat} (hplaces : 0 < places)
    (hu : x.toModel.unpack = .finite s m e hm) :
    ∃ n : Numeral, trimZeros (fixedChars places x) = FloatFormat.signed s n.text ∧
      n.fraction.length ≤ places ∧
      n.shown = ((Binade.mk m e false).roundedTo (-places)).digits / 10 ^ places := by
  obtain ⟨units, hunits⟩ : ∃ units, ((Binade.mk m e false).roundedTo (-places)).digits = units :=
    ⟨_, rfl⟩
  obtain ⟨padded, hpadded⟩ : ∃ padded, List.replicate (places + 1 - (Decimal.digitsOf units).length)
      '0' ++ Decimal.digitsOf units = padded := ⟨_, rfl⟩
  have hdigits : ∀ c ∈ padded, c.isDigit := by
    intro c hc
    rw [← hpadded] at hc
    rcases List.mem_append.1 hc with hc | hc
    · exact isDigit_zeros _ c hc
    · exact isDigit_digitsOf c hc
  -- Padding leaves at least one digit in front of the point.
  have hlength : places < padded.length := by
    rw [← hpadded, List.length_append, List.length_replicate]
    omega
  obtain ⟨n, htext, hshort, hshown⟩ := trimmed_numeral
    (padded.take (padded.length - places)) (padded.drop (padded.length - places))
    (fun c hc => hdigits c (List.mem_of_mem_take hc))
    (fun c hc => hdigits c (List.mem_of_mem_drop hc)) (by
      rw [Ne, List.take_eq_nil_iff, not_or, ← List.length_eq_zero_iff]
      omega)
  have hfraction : (padded.drop (padded.length - places)).length = places := by
    rw [List.length_drop]
    omega
  rw [hfraction] at hshort hshown
  refine ⟨n, ?_, hshort, ?_⟩
  · rw [← htext s, fixedChars, hu]
    simp only [hunits, hpadded, if_neg hplaces.ne']
  · rw [hshown, List.take_append_drop, ← hpadded, ofDigitChars_zeros, hunits]

theorem roundRatio_eq {num n : Int} {den : Nat} (h : 2 * |num - n * den| < den) :
    Scaled.roundRatio num den = n := by
  obtain ⟨hlow, hhigh⟩ := abs_lt.1 (show |2 * (num - n * den)| < den by rwa [abs_mul, abs_two])
  have hsplit := Int.mul_ediv_add_emod num den
  have hnonneg := Int.emod_nonneg num (show (den : Int) ≠ 0 by omega)
  have hless := Int.emod_lt_of_pos num (show 0 < (den : Int) by omega)
  rw [Scaled.roundRatio, Int.fdiv_eq_ediv_of_nonneg _ (Int.natCast_nonneg den)]
  generalize num / den = below at *
  generalize num % den = rest at *
  obtain ⟨j, rfl⟩ : ∃ j, n = below + j := ⟨n - below, by ring⟩
  have hproduct : (below + j) * den = den * below + j * den := by ring
  rw [hproduct] at hlow hhigh
  rw [mul_comm below]
  -- The number is the whole part of the fraction or the next one.
  obtain rfl | rfl : j = 0 ∨ j = 1 := by
    rcases lt_or_ge j 0 with hj | hj
    · have := mul_le_mul_of_nonneg_right (show j ≤ -1 by omega) (Int.natCast_nonneg den)
      omega
    · by_contra hne
      have := mul_le_mul_of_nonneg_right (show 2 ≤ j by omega) (Int.natCast_nonneg den)
      omega
  · rw [if_pos (by omega), add_zero]
  · rw [if_neg (by omega), if_pos (by omega)]

theorem digits_roundedTo (places : Nat) {n : Nat}
    (h : 2 * |(m * 2 ^ e * 10 ^ places : ℚ) - n| < 1) :
    ((Binade.mk m e false).roundedTo (-places)).digits = n := by
  have htwo := Gameroom.zpow_split (by norm_num : (2 : ℚ) ≠ 0) e
  have hround : Scaled.roundRatio ((Binade.mk m e false).ratio (-places)).1
      ((Binade.mk m e false).ratio (-places)).2 = n := by
    refine roundRatio_eq ?_
    simp only [Binade.ratio, Nat.pow_eq, neg_neg, Int.toNat_natCast, Int.toNat_neg_natCast,
      pow_zero, mul_one]
    have hpos : (0 : ℚ) < 2 ^ (-e).toNat := by positivity
    have hscaled := mul_lt_mul_of_pos_right h hpos
    rw [mul_assoc, ← abs_of_pos hpos, ← abs_mul, abs_of_pos hpos, one_mul] at hscaled
    have hdiff : ((m : ℚ) * 2 ^ e * 10 ^ places - n) * 2 ^ (-e).toNat =
        m * 2 ^ e.toNat * 10 ^ places - n * 2 ^ (-e).toNat := by
      rw [← htwo]
      ring
    rw [hdiff] at hscaled
    exact_mod_cast hscaled
  rw [Binade.roundedTo, hround, Int.toNat_natCast]

end Gameroom.Expression
