import Gameroom.Proofs.Expression.Replacing

/-! Numbers as they stand in conditions: digits and points, perhaps with a minus sign in front. -/

namespace Gameroom.Expression

/-- Digits and points, a digit first. -/
structure IsFigure (s : List Char) : Prop where
  head : ∃ c ∈ s.head?, c.isDigit
  plain : ∀ c ∈ s, c.isDigit ∨ c = '.'

/-- A figure, perhaps with a minus sign in front. -/
inductive Shows : List Char → Prop
  | bare {s : List Char} (h : IsFigure s) : Shows s
  | negative {s : List Char} (h : IsFigure s) : Shows ('-' :: s)

/-- A truth value, or a number whose float is finite. -/
def IsNumeric : Json → Prop
  | .bool _ => True
  | .number n => n.isFinite = .ok true
  | _ => False

namespace IsFigure
variable {s t : List Char}

theorem ne_nil (h : IsFigure s) : s ≠ [] := by
  rintro rfl
  simpa using h.head

theorem append (h : IsFigure s) (ht : ∀ c ∈ t, c.isDigit ∨ c = '.') : IsFigure (s ++ t) := by
  refine ⟨?_, fun c hc => (List.mem_append.1 hc).elim (h.plain c) (ht c)⟩
  rw [List.head?_append_of_ne_nil s h.ne_nil]
  exact h.head

theorem of_digits (hne : s ≠ []) (h : ∀ c ∈ s, c.isDigit) : IsFigure s := by
  obtain ⟨c, rest, rfl⟩ := List.exists_cons_of_ne_nil hne
  exact ⟨⟨c, rfl, h c List.mem_cons_self⟩, fun c hc => .inl (h c hc)⟩

end IsFigure

theorem isDigit_digitsOf {n : Nat} : ∀ c ∈ Decimal.digitsOf n, c.isDigit :=
  fun _ hc => Nat.isDigit_of_mem_toDigits (by decide) (by decide) hc

theorem digitsOf_ne_nil (n : Nat) : Decimal.digitsOf n ≠ [] := Nat.toDigits_ne_nil

theorem isFigure_digitsOf (n : Nat) : IsFigure (Decimal.digitsOf n) :=
  .of_digits (digitsOf_ne_nil n) isDigit_digitsOf

theorem shows_intChars (n : Int) : Shows (intChars n) := by
  unfold intChars
  split_ifs
  · exact .negative (isFigure_digitsOf _)
  · exact .bare (isFigure_digitsOf _)

def signOf (i : Int) : Float.Model.UnpackedFloat.Sign := if i < 0 then .negative else .positive

theorem intChars_eq (i : Int) :
    intChars i = FloatFormat.signed (signOf i) (Numeral.ofNat i.natAbs).text := by
  rw [intChars, signOf, Numeral.text_ofNat]
  split_ifs <;> rfl

theorem isDigit_zeros (n : Nat) : ∀ c ∈ List.replicate n '0', c.isDigit := by
  intro c hc
  rw [List.eq_of_mem_replicate hc]
  rfl

theorem isFigure_zero : IsFigure ['0'] := .of_digits (by simp) (isDigit_zeros 1)

theorem plain_point {t : List Char} (h : ∀ c ∈ t, c.isDigit) :
    ∀ c ∈ '.' :: t, c.isDigit ∨ c = '.' := by
  intro c hc
  rcases List.mem_cons.1 hc with rfl | hc
  · exact .inr rfl
  · exact .inl (h c hc)

theorem shows_signed {s : Float.Model.UnpackedFloat.Sign} {t : List Char} (h : IsFigure t) :
    Shows (FloatFormat.signed s t) := by
  cases s with
  | negative => exact .negative h
  | positive => exact .bare h

theorem mem_signed {s : Float.Model.UnpackedFloat.Sign} {t : List Char} {c : Char} (h : c ∈ t) :
    c ∈ FloatFormat.signed s t := by
  cases s with
  | negative => exact List.mem_cons_of_mem _ h
  | positive => exact h

/-! ### Floats without an exponent -/

theorem mem_exponent (f : FloatFormat) (e : Int) : 'e' ∈ f.exponentText e := by
  simp [FloatFormat.exponentText]

theorem layout_isFigure {f : FloatFormat} {d : Decimal} (h : 'e' ∉ f.layout d) :
    IsFigure (f.layout d) := by
  have hdigits := isDigit_digitsOf (n := d.digits)
  unfold FloatFormat.layout at h ⊢
  dsimp only at h ⊢
  split_ifs at h ⊢ with hrange hpoint hwhole hpointZero
  · refine isFigure_zero.append (t := '.' :: (_ ++ _)) (plain_point fun c hc => ?_)
    rcases List.mem_append.1 hc with hc | hc
    · exact isDigit_zeros _ c hc
    · exact hdigits c hc
  · exact ((isFigure_digitsOf _).append fun c hc => .inl (isDigit_zeros _ c hc)).append
      (plain_point (isDigit_zeros 1))
  · exact ((isFigure_digitsOf _).append fun c hc => .inl (isDigit_zeros _ c hc)).append (by simp)
  · have htake : IsFigure ((Decimal.digitsOf d.digits).take d.point.toNat) := by
      refine .of_digits ?_ fun c hc => hdigits c (List.mem_of_mem_take hc)
      rw [Ne, List.take_eq_nil_iff, not_or]
      exact ⟨by omega, digitsOf_ne_nil _⟩
    exact htake.append (plain_point fun c hc => hdigits c (List.mem_of_mem_drop hc))
  · exfalso
    split at h
    · rename_i hnil
      exact digitsOf_ne_nil _ hnil
    · exact h (List.mem_cons_of_mem _ (mem_exponent f _))
    · exact h (List.mem_cons_of_mem _ (List.mem_cons_of_mem _
        (List.mem_append_right _ (mem_exponent f _))))

theorem floatChars_shows {x : Float} (hx : x.isFinite) (h : 'e' ∉ floatChars x) :
    Shows (floatChars x) := by
  unfold floatChars FloatFormat.write at h ⊢
  change x.toModel.unpack.isFinite = true at hx
  split at h
  · rename_i hu
    rw [hu] at hx
    cases hx
  · rename_i s hu
    rw [hu] at hx
    cases hx
  · exact shows_signed (isFigure_zero.append (plain_point (isDigit_zeros 1)))
  · exact shows_signed (layout_isFigure fun he => h (mem_signed he))

/-! ### Floats without their exponent -/

/-- Without the zeros at its end, and the point if that is then the last, a text still starts with
what stands before the point. -/
theorem trimZeros_point {front fraction : List Char} (hfront : ∃ c ∈ front.getLast?, c ≠ '.')
    (hfraction : ∀ c ∈ fraction, c.isDigit) :
    ∃ tail, trimZeros (front ++ '.' :: fraction) = front ++ tail ∧
      ∀ c ∈ tail, c.isDigit ∨ c = '.' := by
  obtain ⟨last, hlast, hpoint⟩ := hfront
  have hreverse : (front ++ '.' :: fraction).reverse =
      fraction.reverse ++ '.' :: front.reverse := by simp
  rw [trimZeros, hreverse, List.dropWhile_append]
  -- With nothing but zeros behind the point it goes too; else some digit holds it.
  split_ifs with hzeros
  · refine ⟨[], ?_, by simp⟩
    obtain ⟨rest, hrest⟩ : ∃ rest, front.reverse = last :: rest := by
      rw [← List.head?_eq_some_iff, List.head?_reverse]
      exact hlast
    rw [List.dropWhile_cons_of_neg (by decide), List.dropWhile_cons_of_pos (by decide), hrest,
      List.dropWhile_cons_of_neg (by simpa using hpoint), ← hrest]
    simp
  · have hsuffix := (List.dropWhile_suffix (l := fraction.reverse) (· = '0')).subset
    obtain ⟨c, rest, hkept⟩ := List.exists_cons_of_ne_nil (mt List.isEmpty_iff.2 hzeros)
    rw [hkept] at hsuffix ⊢
    have hdigit : ∀ c' ∈ c :: rest, c'.isDigit := fun c' hc' =>
      hfraction c' (List.mem_reverse.1 (hsuffix hc'))
    have hc : c ≠ '.' := by
      rintro rfl
      cases hdigit '.' List.mem_cons_self
    refine ⟨'.' :: (c :: rest).reverse, ?_, plain_point fun c' hc' =>
      hdigit c' (List.mem_reverse.1 hc')⟩
    rw [List.cons_append, List.dropWhile_cons_of_neg (by simpa using hc)]
    simp

theorem fixedChars_eq (places : Nat) (x : Float) :
    ∃ s whole fraction,
      fixedChars (places + 1) x = FloatFormat.signed s (whole ++ '.' :: fraction) ∧
      (∀ s' m e hm, x.toModel.unpack = .finite s' m e hm → s = s') ∧
      whole ≠ [] ∧ (∀ c ∈ whole, c.isDigit) ∧ ∀ c ∈ fraction, c.isDigit := by
  unfold fixedChars
  split
  rename_i s units hsign
  have hs (s' m e hm) (hu : x.toModel.unpack = .finite s' m e hm) : s = s' := by
    rw [hu] at hsign
    exact (Prod.mk.inj hsign).1.symm
  dsimp only
  set padded := List.replicate (places + 1 + 1 - (Decimal.digitsOf units).length) '0' ++
    Decimal.digitsOf units with hpadded
  have hdigits : ∀ c ∈ padded, c.isDigit := by
    intro c hc
    rcases List.mem_append.1 hc with hc | hc
    · exact isDigit_zeros _ c hc
    · exact isDigit_digitsOf c hc
  -- Zeros in front keep at least one digit before the point.
  have hlength : places + 1 < padded.length := by
    rw [hpadded, List.length_append, List.length_replicate]
    omega
  refine ⟨s, padded.take (padded.length - (places + 1)), padded.drop (padded.length - (places + 1)),
    by rw [if_neg (Nat.succ_ne_zero places)], hs, ?_,
    fun c hc => hdigits c (List.mem_of_mem_take hc),
    fun c hc => hdigits c (List.mem_of_mem_drop hc)⟩
  rw [Ne, List.take_eq_nil_iff, not_or, ← List.length_eq_zero_iff]
  omega

theorem shows_trimmed (places : Nat) (x : Float) :
    Shows (trimZeros (fixedChars (places + 1) x)) := by
  obtain ⟨s, whole, fraction, heq, -, hne, hwhole, hfraction⟩ := fixedChars_eq places x
  have hlast : ∃ c ∈ whole.getLast?, c ≠ '.' := by
    refine ⟨whole.getLast hne, List.getLast?_eq_some_getLast hne, ?_⟩
    intro h
    have := hwhole _ (List.getLast_mem hne)
    rw [h] at this
    cases this
  rw [heq]
  cases s with
  | positive =>
    obtain ⟨tail, htrim, htail⟩ := trimZeros_point hlast hfraction
    rw [FloatFormat.signed, htrim]
    exact .bare ((IsFigure.of_digits hne hwhole).append htail)
  | negative =>
    have hlast' : ∃ c ∈ ('-' :: whole).getLast?, c ≠ '.' := by
      rwa [List.getLast?_cons_of_ne_nil hne]
    obtain ⟨tail, htrim, htail⟩ := trimZeros_point hlast' hfraction
    rw [FloatFormat.signed, ← List.cons_append, htrim]
    exact .negative ((IsFigure.of_digits hne hwhole).append htail)

theorem floatLiteral_shows {x : Float} (hx : x.isFinite) : Shows (floatLiteral x) := by
  unfold floatLiteral
  dsimp only
  split_ifs with h
  · exact shows_trimmed 16 x
  · exact floatChars_shows hx (by simpa using h)

/-! ### Values -/

theorem isFinite_iff {n : Number} :
    n.isFinite = .ok true ↔ ∃ x, n.toFloat = .ok x ∧ x.isFinite := by
  rw [Number.isFinite]
  cases n.toFloat with
  | error fault => exact ⟨nofun, nofun⟩
  | ok x => exact ⟨fun h => ⟨x, rfl, Except.ok.inj h⟩, fun ⟨_, hx, h⟩ => Except.ok.inj hx ▸ h ▸ rfl⟩

theorem numberLiteral_shows {n : Number} (h : n.isFinite = .ok true) :
    ∃ l, numberLiteral n = .ok l ∧ Shows l := by
  obtain ⟨y, hy, hfinite⟩ := isFinite_iff.1 h
  cases n with
  | int i =>
    rw [numberLiteral]
    split_ifs
    · exact ⟨_, rfl, shows_intChars i⟩
    · exact ⟨floatLiteral y, by rw [hy]; rfl, floatLiteral_shows hfinite⟩
  | float x =>
    obtain rfl : x = y := Except.ok.inj hy
    obtain ⟨v, hv⟩ : ∃ v, Scaled.ofFloat? x = some v := by
      change x.toModel.unpack.isFinite = true at hfinite
      unfold Scaled.ofFloat?
      split
      · exact ⟨_, rfl⟩
      · exact ⟨_, rfl⟩
      all_goals
        rename_i hu
        rw [hu] at hfinite
        cases hfinite
    simp only [numberLiteral, hv]
    split_ifs
    · exact ⟨_, rfl, shows_intChars _⟩
    · exact ⟨_, rfl, floatLiteral_shows hfinite⟩

theorem literal_shows {value : Json} (h : IsNumeric value) :
    ∃ l, literal value = .ok l ∧ Shows l := by
  match value, h with
  | .bool true, _ => exact ⟨_, rfl, .bare (.of_digits (by simp) (by simp))⟩
  | .bool false, _ => exact ⟨_, rfl, .bare isFigure_zero⟩
  | .number _, h => exact numberLiteral_shows h

end Gameroom.Expression
