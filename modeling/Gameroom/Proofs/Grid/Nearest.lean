import Gameroom.Proofs.Grid.Quotient

/-!
A quotient of whole numbers is rounded to the nearest count of units that has 53 bits, a half to the
even one.
-/

open Float.Model (Format UnpackedFloat totalExponent)
open Float.Model.UnpackedFloat

namespace Gameroom.Grid

/-- A count of units, perhaps broken, is nearest to `r * 2 ^ w`, a half to the even `r`, and `w` is
the least exponent for which 53 bits are enough. -/
structure Nearest (s : ℚ) (r w : Nat) : Prop where
  least : 2 ^ 52 * 2 ^ w ≤ s ∨ w = 0
  bits : s < 2 ^ 53 * 2 ^ w
  low : (2 * r - 1) * 2 ^ w ≤ 2 * s
  high : 2 * s ≤ (2 * r + 1) * 2 ^ w
  even : 2 * s = (2 * r - 1) * 2 ^ w ∨ 2 * s = (2 * r + 1) * 2 ^ w → Even r

/-! ### Half to even -/

/-- What is rounded to the even neighbour lies at most half a unit off, and if it is half a unit the
result is even. -/
theorem halfEven_nearest (n k : Nat) :
    2 * halfEven n (k + 1) * 2 ^ k ≤ n + 2 ^ k ∧ n ≤ 2 * halfEven n (k + 1) * 2 ^ k + 2 ^ k ∧
      (2 * halfEven n (k + 1) * 2 ^ k = n + 2 ^ k ∨ n = 2 * halfEven n (k + 1) * 2 ^ k + 2 ^ k →
        Even (halfEven n (k + 1))) := by
  have hpos := Nat.two_pow_pos k
  have hsplit := Nat.div_add_mod n (2 ^ (k + 1))
  have hlt := Nat.mod_lt n (Nat.two_pow_pos (k + 1))
  unfold halfEven
  rw [Nat.pow_succ] at hsplit hlt ⊢
  generalize 2 ^ k = h at *
  generalize n / (h * 2) = d at *
  generalize n % (h * 2) = m at *
  have hnext : 2 * (d + 1) * h = 2 * (d * h) + 2 * h := by ring
  have hhere : 2 * d * h = 2 * (d * h) := by ring
  have hn : n = 2 * (d * h) + m := by rw [← hsplit]; ring
  rw [Nat.even_iff]
  split_ifs with hless hhalf
  · rw [hhere]
    omega
  · rcases Nat.mod_two_eq_zero_or_one d with hd | hd
    · rw [hd, Nat.add_zero, hhere]
      omega
    · rw [hd, hnext]
      omega
  · rw [hnext]
    omega

/-! ### Quarters of a unit -/

/-- What stands for the rest of a quotient in quarters: as much as half a unit and nothing are told
from other rests. -/
def quarters : Accuracy → Nat
  | .exact => 0
  | .inexact .lt => 1
  | .inexact .eq => 2
  | .inexact .gt => 3

theorem ofMantissaAndAccuracy_eq (q : Nat) (a : Accuracy) :
    ExtendedMantissa.ofMantissaAndAccuracy q a =
      (⟨4 * q + quarters a, false, false⟩ : ExtendedMantissa) >>> 2 := by
  have hdiv (c : Nat) (hc : c < 4) : (4 * q + c) / 4 = q := by omega
  rw [shiftRight_exact]
  cases a with
  | exact => simp [ExtendedMantissa.ofMantissaAndAccuracy, quarters]
  | inexact o =>
    cases o <;> simp [ExtendedMantissa.ofMantissaAndAccuracy, quarters, hdiv]

theorem shiftRight_add (em : ExtendedMantissa) (i j : Nat) : (em >>> i) >>> j = em >>> (i + j) := by
  change Nat.repeat ExtendedMantissa.shiftRightOne j
      (Nat.repeat ExtendedMantissa.shiftRightOne i em) =
    Nat.repeat ExtendedMantissa.shiftRightOne (i + j) em
  induction j with
  | zero => rfl
  | succ j ih => exact congrArg ExtendedMantissa.shiftRightOne ih

theorem log2_quarters {q c : Nat} (hq : 0 < q) (hc : c < 4) : (4 * q + c).log2 = q.log2 + 2 := by
  rw [Nat.log2_eq_iff (by omega)]
  have hlow := Nat.log2_self_le hq.ne'
  have hhigh := Nat.lt_log2_self (n := q)
  have hfour : 2 ^ (q.log2 + 2) = 2 ^ q.log2 * 4 := Nat.pow_add 2 q.log2 2
  rw [Nat.pow_succ] at hhigh
  rw [Nat.pow_succ 2 (q.log2 + 2), hfour]
  omega

theorem quarters_lt (a : Accuracy) : quarters a < 4 := by
  cases a with
  | exact => decide
  | inexact o => cases o <;> decide

theorem target_quarters (q : Nat) {t : Int} (a : Accuracy)
    (ht : t ≤ max (q.log2 + t - 52) (-1074)) :
    max (((4 * q + quarters a).log2 : Int) + (t - 2) - 52) (-1074) =
      max (q.log2 + t - 52) (-1074) := by
  have hc := quarters_lt a
  rcases Nat.eq_zero_or_pos q with rfl | hq
  · have hsmall : (4 * 0 + quarters a).log2 ≤ 1 := by
      rcases Nat.eq_zero_or_pos (quarters a) with h | h
      · rw [h]
        decide
      · have := (Nat.log2_lt (n := 4 * 0 + quarters a) (k := 2) (by omega)).2 (by omega)
        omega
    rw [Nat.log2_zero] at *
    omega
  · rw [log2_quarters hq hc]
    omega

theorem roundWithAccuracy_quarters (s : Sign) {q : Nat} {t : Int} (a : Accuracy)
    (ht : t ≤ max (q.log2 + t - 52) (-1074)) :
    roundWithAccuracy .binary64 s q t a =
      roundWithAccuracy .binary64 s (4 * q + quarters a) (t - 2) .exact := by
  have htarget := target_quarters q a ht
  obtain ⟨k, hk⟩ : ∃ k : Nat, max ((q.log2 : Int) + t - 52) (-1074) = t + k :=
    ⟨(max ((q.log2 : Int) + t - 52) (-1074) - t).toNat, by omega⟩
  have hshift : (t + k - t).toNat = k := by omega
  have hshift' : (t + k - (t - 2)).toNat = 2 + k := by omega
  have hsame : shiftToTargetExponent .binary64 q t a =
      shiftToTargetExponent .binary64 (4 * q + quarters a) (t - 2) .exact := by
    have hexact : ExtendedMantissa.ofMantissaAndAccuracy (4 * q + quarters a) .exact =
        ⟨4 * q + quarters a, false, false⟩ := rfl
    simp only [shiftToTargetExponent, shiftToExponent, targetExponent_eq, htarget, hk, hshift,
      hshift']
    rw [ofMantissaAndAccuracy_eq, hexact, shiftRight_add]
    refine Prod.ext rfl ?_
    push_cast
    omega
  rw [roundWithAccuracy, roundWithAccuracy, hsame]

theorem quarters_iff {m b : Nat} (hb : 0 < b) :
    (quarters (accuracyOfFraction m b) = 0 ↔ m = 0) ∧
      (2 ≤ quarters (accuracyOfFraction m b) ↔ b ≤ 2 * m) ∧
      (quarters (accuracyOfFraction m b) ≤ 2 ↔ 2 * m ≤ b) := by
  unfold accuracyOfFraction
  split_ifs with hm
  · subst hm
    simp [quarters]
    omega
  · rcases lt_trichotomy (2 * m) b with h | h | h
    · rw [Nat.compare_eq_lt.2 h]
      simp only [quarters]
      omega
    · rw [Nat.compare_eq_eq.2 h]
      simp only [quarters]
      omega
    · rw [Nat.compare_eq_gt.2 h]
      simp only [quarters]
      omega

/-- A broken number compares with even numbers as a whole one does. -/
def SameToEven (s : ℚ) (n : Nat) : Prop :=
  ∀ i : ℤ, (2 * i ≤ s ↔ 2 * i ≤ (n : ℤ)) ∧ (s ≤ 2 * i ↔ (n : ℤ) ≤ 2 * i)

theorem quarters_sameToEven (a : Nat) {b : Nat} (hb : 0 < b) :
    SameToEven (4 * (a / b)) (4 * (a / b) + quarters (accuracyOfFraction (a % b) b)) := by
  intro i
  have hpos : (0 : ℚ) < b := by exact_mod_cast hb
  have hscale (x : ℚ) : 2 * x * b = 2 * (x * b) ∧ 4 * (a : ℚ) = 2 * (2 * a) := by
    constructor <;> ring
  have hlow : 2 * (i : ℚ) ≤ 4 * (a / b) ↔ i * b ≤ 2 * (a : ℤ) := by
    rw [← mul_div_assoc, le_div_iff₀ hpos, (hscale i).1, (hscale i).2,
      mul_le_mul_iff_right₀ two_pos]
    norm_cast
  have hhigh : 4 * (a / b) ≤ 2 * (i : ℚ) ↔ 2 * (a : ℤ) ≤ i * b := by
    rw [← mul_div_assoc, div_le_iff₀ hpos, (hscale i).1, (hscale i).2,
      mul_le_mul_iff_right₀ two_pos]
    norm_cast
  rw [hlow, hhigh]
  have hsplit := Nat.div_add_mod a b
  have hlt := Nat.mod_lt a hb
  obtain ⟨hzero, hge, hle⟩ := quarters_iff (m := a % b) hb
  have hc := quarters_lt (accuracyOfFraction (a % b) b)
  generalize quarters (accuracyOfFraction (a % b) b) = c at *
  generalize a / b = q at *
  generalize a % b = m at *
  -- Away from the whole part, only the next even number decides.
  obtain ⟨j, rfl⟩ : ∃ j, i = 2 * q + j := ⟨i - 2 * q, by ring⟩
  have hproduct : (2 * (q : ℤ) + j) * b = 2 * (b * q) + j * b := by ring
  have ha : (a : ℤ) = b * q + m := by exact_mod_cast hsplit.symm
  rw [hproduct, ha]
  have hb' : (0 : ℤ) < b := by exact_mod_cast hb
  rcases lt_trichotomy j 0 with hj | rfl | hj
  · have := mul_neg_of_neg_of_pos hj hb'
    omega
  · omega
  · rcases (show j = 1 ∨ 2 ≤ j by omega) with rfl | hj
    · omega
    · have := mul_le_mul_of_nonneg_right hj hb'.le
      omega

theorem SameToEven.scaled {x : ℚ} {n k : Nat} (h : SameToEven (x * 2 ^ (k + 2)) n) (i : ℤ) :
    (i ≤ 2 * x ↔ 2 * (i * 2 ^ k) ≤ (n : ℤ)) ∧ (2 * x ≤ i ↔ (n : ℤ) ≤ 2 * (i * 2 ^ k)) := by
  have hp : (0 : ℚ) < 2 * 2 ^ k := by positivity
  have hi : 2 * ((i * 2 ^ k : ℤ) : ℚ) = i * (2 * 2 ^ k) := by
    push_cast
    ring
  have hx : x * 2 ^ (k + 2) = 2 * x * (2 * 2 ^ k) := by
    rw [pow_add]
    ring
  obtain ⟨hle, hge⟩ := h (i * 2 ^ k)
  rw [hi, hx] at hle hge
  exact ⟨(mul_le_mul_iff_left₀ hp).symm.trans hle, (mul_le_mul_iff_left₀ hp).symm.trans hge⟩

/-! ### Quotients -/

/-- What compares with even numbers as a broken number does is rounded to what is nearest to it. -/
theorem nearest_of_sameToEven {s : ℚ} {n k w : Nat} (h : SameToEven s n) (hn : 0 < n)
    (hbits : n.log2 ≤ 54 + k) (hleast : n.log2 = 54 + k ∨ w = 0) :
    Nearest (s / 2 ^ (k + 2) * 2 ^ w) (halfEven n (k + 2)) w := by
  obtain ⟨hlow, hhigh, heven⟩ := halfEven_nearest n (k + 1)
  generalize halfEven n (k + 1 + 1) = r at *
  have hw : (0 : ℚ) < 2 ^ w := by positivity
  obtain ⟨x, rfl⟩ : ∃ x : ℚ, s = x * 2 ^ (k + 2) := ⟨s / 2 ^ (k + 2), by field_simp⟩
  rw [mul_div_assoc, div_self (by positivity), mul_one]
  -- In quarters all bounds are even, so the whole number tells on which side of them `x` lies.
  have hdown : 2 * ((2 * r - 1) * 2 ^ k) = 2 * r * 2 ^ (k + 1) - (2 ^ (k + 1) : ℤ) := by ring
  have hup : 2 * ((2 * r + 1) * 2 ^ k) = 2 * r * 2 ^ (k + 1) + (2 ^ (k + 1) : ℤ) := by ring
  obtain ⟨hfrom, htie⟩ := h.scaled (2 * r - 1)
  obtain ⟨htie', hto⟩ := h.scaled (2 * r + 1)
  rw [hdown] at hfrom htie
  rw [hup] at htie' hto
  push_cast at hfrom htie htie' hto
  zify at hlow hhigh heven
  refine ⟨hleast.imp (fun hlog => ?_) id, ?_, ?_, ?_, ?_⟩
  · have hpow := Nat.log2_self_le hn.ne'
    rw [hlog] at hpow
    have hx := (h.scaled (2 ^ 53)).1.2 (by
      rw [← pow_add, ← pow_succ']
      exact_mod_cast (show 53 + k + 1 = 54 + k by omega) ▸ hpow)
    push_cast at hx
    exact mul_le_mul_of_nonneg_right (by linarith) hw.le
  · have hpow := (Nat.log2_lt hn.ne').1 (Nat.lt_succ_of_le hbits)
    have hx := mt (h.scaled (2 ^ 54)).1.1 (by
      rw [not_le, ← pow_add, ← pow_succ']
      exact_mod_cast hpow)
    push_cast at hx
    exact mul_lt_mul_of_pos_right (by linarith) hw
  · rw [← mul_assoc]
    exact mul_le_mul_of_nonneg_right (hfrom.2 (by linarith)) hw.le
  · rw [← mul_assoc]
    exact mul_le_mul_of_nonneg_right (hto.2 (by linarith)) hw.le
  · rw [← mul_assoc, mul_left_inj' hw.ne', mul_left_inj' hw.ne']
    refine fun hties => heven (hties.imp (fun hx => ?_) fun hx => ?_)
    · linarith [htie.1 hx.le]
    · linarith [htie'.1 hx.ge]

theorem quotient_in_units {a b j k w : Nat} (hb : 0 < b) (hexp : j + 2 + w = depth + (k + 2)) :
    4 * ((a * 2 ^ j : Nat) / b) / 2 ^ (k + 2) * 2 ^ w = (a / b * 2 ^ depth : ℚ) := by
  have hpow : (4 : ℚ) * 2 ^ j * 2 ^ w = 2 ^ depth * 2 ^ (k + 2) := by
    rw [← pow_add, ← hexp, pow_add, pow_add]
    ring
  have hb' : (b : ℚ) ≠ 0 := by exact_mod_cast hb.ne'
  push_cast
  field_simp
  linear_combination (a : ℚ) * hpow

theorem div_nearest {a b : Nat} (ha : 0 < a) (hb : 0 < b) :
    ∃ r w, Counts (UnpackedFloat.div .binary64 (.finite .positive a 0 ha)
        (.finite .positive b 0 hb)) (r * 2 ^ w : Nat) ∧ Nearest (a / b * 2 ^ depth) r w := by
  obtain ⟨t, ht⟩ : ∃ t, t = min ((0 : Int) - 0) (max (a.log2 + 0 - b.log2 - 0 - 53) (-1074)) :=
    ⟨_, rfl⟩
  obtain ⟨j, hj⟩ : ∃ j, ((0 : Int) - 0 - t).toNat = j := ⟨_, rfl⟩
  have hshifted : 0 < a * 2 ^ j := Nat.mul_pos ha (Nat.two_pow_pos j)
  have hbits : t ≤ max ((a * 2 ^ j / b).log2 + t - 52) (-1074) := by
    rcases (show t = -1074 ∨ b.log2 + 53 ≤ a.log2 + j by omega) with h | h
    · omega
    · have := (Nat.le_log2 (by have := bits_of_quotient ha hb h; omega)).2
        (bits_of_quotient ha hb h)
      omega
  have hsame := quarters_sameToEven (a * 2 ^ j) hb
  have hpos : 0 < 4 * (a * 2 ^ j / b) + quarters (accuracyOfFraction (a * 2 ^ j % b) b) := by
    have hzero := (quarters_iff (m := a * 2 ^ j % b) hb).1
    have := Nat.div_add_mod (a * 2 ^ j) b
    by_contra hnone
    obtain ⟨hq, hc⟩ : a * 2 ^ j / b = 0 ∧
      quarters (accuracyOfFraction (a * 2 ^ j % b) b) = 0 := by omega
    rw [hq, hzero.1 hc] at this
    omega
  rw [div_rounds ha hb ht hj, roundWithAccuracy_quarters .positive _ hbits]
  have htarget' : max (((4 * (a * 2 ^ j / b) + quarters
      (accuracyOfFraction (a * 2 ^ j % b) b)).log2 : Int) + (t - 2) - 52) (-1074) =
      max ((a * 2 ^ j / b).log2 + t - 52) (-1074) := target_quarters _ _ hbits
  generalize 4 * (a * 2 ^ j / b) + quarters (accuracyOfFraction (a * 2 ^ j % b) b) = n at *
  obtain ⟨k, hk⟩ : ∃ k : Nat, max ((n.log2 : Int) + (t - 2) - 52) (-1074) = t - 2 + (k + 2 : Nat) :=
    ⟨(max ((n.log2 : Int) + (t - 2) - 52) (-1074) - t).toNat, by omega⟩
  obtain ⟨w, hw⟩ : ∃ w, (t - 2 + (k + 2 : Nat) + 1074).toNat = w := ⟨_, rfl⟩
  have hcounts := roundWithAccuracy_shifted .positive hpos hk
  have hnearest := nearest_of_sameToEven (k := k) (w := w) hsame hpos (by omega) (by omega)
  rw [hw] at hcounts
  have hexp : j + 2 + w = depth + (k + 2) := by
    unfold depth
    omega
  rw [quotient_in_units hb hexp] at hnearest
  exact ⟨_, w, hcounts, hnearest⟩

theorem rounded_nearest {n : Nat} (hn : 2 ^ 54 ≤ n) :
    ∃ r w, rounded n = r * 2 ^ w ∧ Nearest n r w := by
  have hlog : 54 ≤ n.log2 := (Nat.le_log2 (by omega)).2 hn
  obtain ⟨k, hk⟩ : ∃ k, n.log2 = 54 + k := ⟨n.log2 - 54, by omega⟩
  have hsame : SameToEven n n := fun i => ⟨by norm_cast, by norm_cast⟩
  have hnearest := nearest_of_sameToEven (w := k + 2) hsame (by omega) hk.le (.inl hk)
  rw [div_mul_cancel₀ _ (by positivity)] at hnearest
  refine ⟨_, k + 2, ?_, hnearest⟩
  rw [rounded, hk, show 54 + k - 52 = k + 2 by omega]

/-! ### Floats -/

/-- Where the counts begin that are rounded to a mantissa, in quarters. Below a power of two the
next float is only half as far. -/
def lowest (m w : Nat) : ℚ := if m = 2 ^ 52 ∧ 0 < w then 4 * m - 1 else 4 * m - 2

/-- The counts of units that are rounded to `m * 2 ^ w`. -/
structure Near (m w : Nat) (s : ℚ) : Prop where
  low : lowest m w * 2 ^ w ≤ 4 * s
  high : 4 * s ≤ (4 * m + 2) * 2 ^ w
  even : 4 * s = lowest m w * 2 ^ w ∨ 4 * s = (4 * m + 2) * 2 ^ w → Even m

variable {s : ℚ} {m r w v : Nat}

/-- A mantissa of 53 bits, or a shorter one at the least exponent. -/
def Fit (m w : Nat) : Prop := m < 2 ^ 53 ∧ (2 ^ 52 ≤ m ∨ w = 0)

theorem Nearest.le_bits (h : Nearest s r w) : r ≤ 2 ^ 53 := by
  have hp : (0 : ℚ) < 2 ^ w := by positivity
  have hlt : (2 * r - 1) * (2 : ℚ) ^ w < 2 ^ 54 * 2 ^ w := by linarith [h.low, h.bits]
  have := lt_of_mul_lt_mul_right hlt hp.le
  have hcast : ((2 * r : Nat) : ℚ) < (2 ^ 54 + 1 : Nat) := by
    push_cast
    linarith
  have := Nat.cast_lt.1 hcast
  omega

theorem Nearest.bits_le (h : Nearest s r w) (hw : 0 < w) : 2 ^ 52 ≤ r := by
  have hp : (0 : ℚ) < 2 ^ w := by positivity
  have hle : (2 : ℚ) ^ 53 * 2 ^ w ≤ (2 * r + 1) * 2 ^ w := by
    linarith [h.high, h.least.resolve_right hw.ne']
  have := le_of_mul_le_mul_right hle hp
  have hcast : ((2 ^ 53 : Nat) : ℚ) ≤ (2 * r + 1 : Nat) := by
    push_cast
    linarith
  have := Nat.cast_le.1 hcast
  omega

theorem lowest_ge (m w : Nat) : 4 * m - 2 ≤ lowest m w := by
  unfold lowest
  split_ifs <;> linarith

theorem Near.low_ge (h : Near m w s) : (4 * m - 2) * 2 ^ w ≤ 4 * s :=
  (mul_le_mul_of_nonneg_right (lowest_ge m w) (by positivity)).trans h.low

theorem Fit.lt_of_lt {m' w' : Nat} (hm : Fit m w) (hm' : Fit m' w') (hw : w < w') :
    m * 2 ^ w < m' * 2 ^ w' := by
  obtain ⟨j, rfl⟩ : ∃ j, w' = w + 1 + j := ⟨w' - w - 1, by omega⟩
  calc m * 2 ^ w < 2 ^ 53 * 2 ^ w := Nat.mul_lt_mul_of_pos_right hm.1 (Nat.two_pow_pos w)
    _ = 2 ^ 52 * 2 ^ (w + 1) := carry w
    _ ≤ m' * 2 ^ (w + 1) := Nat.mul_le_mul_right _ (hm'.2.resolve_right (by omega))
    _ ≤ m' * 2 ^ (w + 1 + j) :=
      Nat.mul_le_mul_left _ (Nat.pow_le_pow_right Nat.two_pos (by omega))

theorem fit_inj {m' w' : Nat} (hm : Fit m w) (hm' : Fit m' w')
    (heq : m * 2 ^ w = m' * 2 ^ w') : m = m' ∧ w = w' := by
  rcases lt_trichotomy w w' with hw | rfl | hw
  · exact absurd heq (hm.lt_of_lt hm' hw).ne
  · exact ⟨Nat.eq_of_mul_eq_mul_right (Nat.two_pow_pos w) heq, rfl⟩
  · exact absurd heq (hm'.lt_of_lt hm hw).ne'

theorem Nearest.near (h : Nearest s r v) (hm : Fit m w) (heq : r * 2 ^ v = m * 2 ^ w) :
    Near m w s := by
  have hp : (0 : ℚ) < 2 ^ v := by positivity
  rcases h.le_bits.lt_or_eq with hr | rfl
  · obtain ⟨rfl, rfl⟩ := fit_inj ⟨hr, v.eq_zero_or_pos.symm.imp_left h.bits_le⟩ hm heq
    have hhigh : 4 * s = (4 * r + 2) * 2 ^ v → Even r := fun htie => h.even (.inr (by linarith))
    by_cases hpower : r = 2 ^ 52 ∧ 0 < v
    · have hleast := h.least.resolve_right (by omega)
      have hbelow : lowest r v * 2 ^ v < 4 * s := by
        rw [lowest, if_pos hpower, hpower.1]
        push_cast
        linarith
      exact ⟨hbelow.le, by linarith [h.high], (·.elim (absurd · hbelow.ne') hhigh)⟩
    · have hlowest : lowest r v = 4 * r - 2 := if_neg hpower
      refine ⟨?_, by linarith [h.high], ?_⟩
      · rw [hlowest]
        linarith [h.low]
      · rw [hlowest]
        exact fun hties => h.even (hties.imp (by intro; linarith) (by intro; linarith))
  · -- The count is carried to the next power of two, which is even.
    obtain ⟨rfl, rfl⟩ : 2 ^ 52 = m ∧ v + 1 = w :=
      fit_inj ⟨by decide, .inl le_rfl⟩ hm (by rw [← heq]; ring)
    have hlowest : lowest (2 ^ 52) (v + 1) = 2 ^ 54 - 1 := by
      rw [lowest, if_pos ⟨rfl, v.succ_pos⟩]
      norm_num
    have hlow := h.low
    have hbits := h.bits
    push_cast at hlow
    have hnext : (2 : ℚ) ^ (v + 1) = 2 ^ v * 2 := pow_succ 2 v
    refine ⟨?_, ?_, fun _ => by decide⟩
    · rw [hlowest, hnext]
      linarith
    · push_cast
      rw [hnext]
      linarith

/-! ### Neighbours -/

theorem lowest_ge_bits (hm : 2 ^ 52 ≤ m) (hw : 0 < w) : 2 ^ 54 - 1 ≤ lowest m w := by
  rcases hm.eq_or_lt with rfl | hlt
  · rw [lowest, if_pos ⟨rfl, hw⟩]
    norm_num
  · have hmore : (2 : ℚ) ^ 52 + 1 ≤ m := by exact_mod_cast hlt
    have := lowest_ge m w
    linarith

/-- What is rounded to a float lies below what is rounded to a greater one; where they meet, one of
the mantissas is odd. -/
theorem Fit.gap {m' w' : Nat} (hm : Fit m w) (hm' : Fit m' w') (hlt : m * 2 ^ w < m' * 2 ^ w') :
    (4 * m + 2) * 2 ^ w ≤ lowest m' w' * 2 ^ w' ∧
      ((4 * m + 2) * 2 ^ w = lowest m' w' * 2 ^ w' → ¬(Even m ∧ Even m')) := by
  have hp : (0 : ℚ) < 2 ^ w := by positivity
  rcases lt_trichotomy w w' with hw | rfl | hw
  · obtain ⟨j, rfl⟩ : ∃ j, w' = w + 1 + j := ⟨w' - w - 1, by omega⟩
    have hpow : (2 : ℚ) ^ (w + 1 + j) = 2 * 2 ^ j * 2 ^ w := by ring
    have hj : (1 : ℚ) ≤ 2 ^ j := one_le_pow₀ (by norm_num)
    have hmost : (m : ℚ) + 1 ≤ 2 ^ 53 := by exact_mod_cast hm.1
    have hlowest : 2 ^ 54 - 1 ≤ lowest m' (w + 1 + j) :=
      lowest_ge_bits (hm'.2.resolve_right (by omega)) (by omega)
    -- The next exponent starts where this one ends, so twice its least mantissa is above all of
    -- these.
    have hdouble : (2 : ℚ) ^ 55 - 2 ≤ lowest m' (w + 1 + j) * (2 * 2 ^ j) := by
      calc (2 : ℚ) ^ 55 - 2 ≤ lowest m' (w + 1 + j) * 2 := by linarith
        _ ≤ lowest m' (w + 1 + j) * 2 * 2 ^ j := le_mul_of_one_le_right (by linarith) hj
        _ = lowest m' (w + 1 + j) * (2 * 2 ^ j) := by ring
    rw [hpow, ← mul_assoc]
    refine ⟨mul_le_mul_of_nonneg_right (by linarith) hp.le, fun heq heven => ?_⟩
    have heq := mul_right_cancel₀ hp.ne' heq
    have hmost' : (2 ^ 53 : ℚ) ≤ (m + 1 : Nat) := by
      push_cast
      linarith
    have hmost' : 2 ^ 53 ≤ m + 1 := by exact_mod_cast hmost'
    obtain rfl : m = 2 ^ 53 - 1 := by have := hm.1; omega
    exact absurd heven.1 (by decide)
  · have hnext : (m : ℚ) + 1 ≤ m' := by
      exact_mod_cast Nat.lt_of_mul_lt_mul_right hlt
    have hlowest := lowest_ge m' w
    refine ⟨mul_le_mul_of_nonneg_right (by linarith) hp.le, fun heq heven => ?_⟩
    have heq := mul_right_cancel₀ hp.ne' heq
    obtain rfl : m' = m + 1 := by
      have : (m' : ℚ) = (m + 1 : Nat) := by
        push_cast
        linarith
      exact_mod_cast this
    exact absurd heven.1 (Nat.even_add_one.1 heven.2)
  · exact absurd hlt (hm'.lt_of_lt hm hw).not_gt

theorem Near.mono {m' w' : Nat} {s' : ℚ} (hm : Fit m w) (hm' : Fit m' w') (h : Near m w s)
    (h' : Near m' w' s') (hle : s ≤ s') : m * 2 ^ w ≤ m' * 2 ^ w' := by
  by_contra hlt
  obtain ⟨hgap, hodd⟩ := hm'.gap hm (not_le.1 hlt)
  have hlow := h.low
  have hhigh := h'.high
  exact hodd (by linarith) ⟨h'.even (.inr (by linarith)), h.even (.inl (by linarith))⟩

theorem Nearest.eq (h : Nearest s r v) (hm : Fit m w) (hnear : Near m w s) :
    r * 2 ^ v = m * 2 ^ w := by
  obtain ⟨m', w', hm', heq⟩ : ∃ m' w', Fit m' w' ∧ r * 2 ^ v = m' * 2 ^ w' := by
    rcases h.le_bits.lt_or_eq with hr | rfl
    · exact ⟨r, v, ⟨hr, v.eq_zero_or_pos.symm.imp_left h.bits_le⟩, rfl⟩
    · exact ⟨2 ^ 52, v + 1, ⟨by decide, .inl le_rfl⟩, by ring⟩
  have hnear' := h.near hm' heq
  rw [heq]
  exact le_antisymm (hnear'.mono hm' hm hnear le_rfl) (hnear.mono hm hm' hnear' le_rfl)

end Gameroom.Grid
