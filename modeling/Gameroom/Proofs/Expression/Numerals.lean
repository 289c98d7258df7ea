import Gameroom.Proofs.Expression.Tree
import Gameroom.Proofs.Number.Whole
import Gameroom.Proofs.Text.Classes

/-! A decimal is read as the float that it means. -/

namespace Gameroom.Expression.Numeral

theorem text_plain (n : Numeral) : ∀ c ∈ n.text, c.isDigit ∨ c = '.' := by
  have hdigits := n.digits
  intro c hc
  unfold text at hc
  cases hf : n.fraction? with
  | none =>
    rw [hf] at hc
    exact .inl (hdigits c (by simpa [hf] using hc))
  | some fraction =>
    rw [hf] at hc hdigits
    rcases List.mem_append.1 hc with hc | hc
    · exact .inl (hdigits c (List.mem_append_left _ hc))
    · rcases List.mem_cons.1 hc with rfl | hc
      · exact .inr rfl
      · exact .inl (hdigits c (List.mem_append_right _ hc))

theorem text_ne_nil (n : Numeral) : n.text ≠ [] := by
  have hne := n.nonempty
  unfold text
  cases hf : n.fraction? with
  | none => simpa [hf] using hne
  | some fraction => simp

theorem not_isBlank {c : Char} (h : c.isDigit ∨ c = '.') : Text.isBlank c = false := by
  rcases h with h | rfl
  · exact Text.not_isBlank_of_isWord (Text.isWord_of_isDigit (Text.isDigit_of_ascii h))
  · decide

theorem plainDigit_eq {c : Char} (h : c.isDigit ∨ c = '.') : Reading.plainDigit c = c := by
  rcases h with h | rfl
  · have hrange := Text.toNat_of_isDigit h
    have hfirst : (decide (48 ≤ c.toNat) && decide (c.toNat ≤ 48 + 9)) = true := by simp; omega
    have hdigit : Text.digitOf? c = some (c.toNat - 48) := by
      rw [Text.digitOf?, Text.zeros, List.find?_cons, hfirst]
      rfl
    have hcode : 48 + (c.toNat - 48) = c.toNat := by omega
    rw [Reading.plainDigit, hdigit]
    dsimp only
    rw [hcode, Char.ofNat_toNat]
  · decide

theorem normal_map {s : List Char} (hblank : ∀ c ∈ s, Reading.isNumberBlank c = false) :
    Reading.normal s = s.map Reading.plainDigit := by
  have hback : ∀ c ∈ s.reverse, Reading.isNumberBlank c = false :=
    fun c hc => hblank c (List.mem_reverse.1 hc)
  rw [Reading.normal, Text.dropWhile_eq_self hblank, Text.dropWhile_eq_self hback,
    List.reverse_reverse]

theorem normal_eq {s : List Char} (hblank : ∀ c ∈ s, Reading.isNumberBlank c = false)
    (hdigit : ∀ c ∈ s, Reading.plainDigit c = c) : Reading.normal s = s := by
  rw [normal_map hblank]
  exact (List.map_congr_left hdigit).trans (List.map_id _)

theorem not_isNumberBlank {c : Char} (h : Text.isBlank c = false) :
    Reading.isNumberBlank c = false := by
  rw [Reading.isNumberBlank, h]
  rfl

theorem normal_text (n : Numeral) : Reading.normal n.text = n.text :=
  normal_eq (fun c hc => not_isNumberBlank (not_isBlank (n.text_plain c hc)))
    fun c hc => plainDigit_eq (n.text_plain c hc)

theorem dropUnderscores_eq {s : List Char} (h : '_' ∉ s) (b : Bool) :
    Reading.dropUnderscores b s = some s := by
  induction s generalizing b with
  | nil => cases b <;> rfl
  | cons c s ih =>
    have hc : c ≠ '_' := fun hc => h (hc ▸ List.mem_cons_self)
    have hrest := ih (fun hs => h (List.mem_cons_of_mem _ hs)) c.isDigit
    cases b <;> simp [Reading.dropUnderscores, hc, hrest]

theorem sign_text (n : Numeral) : Reading.sign n.text = (false, n.text) := by
  have hplain := n.text_plain
  unfold Reading.sign
  split
  · rename_i rest heq
    have := hplain '-' (heq ▸ List.mem_cons_self)
    simp at this
  · rename_i rest heq
    have := hplain '+' (heq ▸ List.mem_cons_self)
    simp at this
  · rfl

theorem value_eq (digits : List Char) : Reading.value digits = Nat.ofDigitChars 10 digits 0 := by
  rw [Nat.ofDigitChars_eq_foldl, Reading.value]
  congr
  funext n c
  rw [Nat.mul_comm]
  rfl

theorem decimal_text (n : Numeral) : Reading.decimal? n.text = some n.value := by
  have hwhole : ∀ c ∈ n.whole, c.isDigit := fun c hc => n.digits c (List.mem_append_left _ hc)
  have hne := n.nonempty
  unfold Reading.decimal? text value fraction
  cases hf : n.fraction? with
  | none =>
    rw [hf, Option.getD_none, List.append_nil] at hne
    rw [Text.takeWhile_run hwhole (by simp), Text.dropWhile_run hwhole (by simp)]
    dsimp only
    rw [if_neg (by simpa using hne), Reading.exponent?, value_eq]
    simp
  | some fraction =>
    have hfraction : ∀ c ∈ fraction, c.isDigit := fun c hc =>
      n.digits c (List.mem_append_right _ (by simpa [hf] using hc))
    have hpoint : ∀ c ∈ ('.' :: fraction).head?, c.isDigit = false := by simp
    rw [hf, Option.getD_some] at hne
    rw [Text.takeWhile_run hwhole hpoint, Text.dropWhile_run hwhole hpoint]
    simp only [List.takeWhile_eq_self_iff.2 hfraction, List.dropWhile_eq_nil_iff.2 hfraction]
    rw [if_neg (by simpa using hne), Reading.exponent?, value_eq]
    simp

theorem toLower_eq {c : Char} (h : c.isDigit ∨ c = '.') : c.toLower = c := by
  rcases h with h | rfl
  · have hrange := Text.toNat_of_isDigit h
    rw [Char.toLower, dif_neg]
    rintro ⟨hge, -⟩
    have : 65 ≤ c.toNat := UInt32.le_iff_toNat_le.1 hge
    omega
  · rfl

theorem unsigned_text (n : Numeral) : Reading.unsigned? n.text = some n.value := by
  obtain ⟨c, rest, hc⟩ := List.exists_cons_of_ne_nil n.text_ne_nil
  have hplain := n.text_plain c (hc ▸ List.mem_cons_self)
  -- The words for infinities and no number start with letters.
  have hword (first : Char) (more : List Char) (h : first.isDigit = false ∧ first ≠ '.') :
      String.ofList (n.text.map Char.toLower) ≠ String.ofList (first :: more) := by
    intro hword
    rw [hc, List.map_cons, toLower_eq hplain] at hword
    obtain rfl : c = first := (List.cons.inj (String.ofList_injective hword)).1
    simp [h] at hplain
  unfold Reading.unsigned?
  split
  · rename_i h
    exact absurd h (hword 'i' ['n', 'f'] (by decide))
  · rename_i h
    exact absurd h (hword 'i' ['n', 'f', 'i', 'n', 'i', 't', 'y'] (by decide))
  · rename_i h
    exact absurd h (hword 'n' ['a', 'n'] (by decide))
  · exact n.decimal_text

theorem float_text (n : Numeral) : Reading.float? n.text = some n.value := by
  have hscore : '_' ∉ n.text := by
    intro h
    have := n.text_plain '_' h
    simp at this
  unfold Reading.float?
  rw [normal_text, dropUnderscores_eq hscore, Option.bind_eq_bind, Option.bind_some, sign_text]
  dsimp only
  rw [unsigned_text]
  rfl

/-! ### Whole numbers -/

def ofNat (n : Nat) : Numeral where
  whole := Decimal.digitsOf n
  fraction? := none
  digits c hc := by
    rw [Option.getD_none, List.append_nil] at hc
    exact Nat.isDigit_of_mem_toDigits (by decide) (by decide) hc
  nonempty := by
    rw [Option.getD_none, List.append_nil]
    exact Nat.toDigits_ne_nil

theorem text_ofNat (n : Nat) : (ofNat n).text = Decimal.digitsOf n := List.append_nil _

theorem value_ofNat (n : Nat) : (ofNat n).value = floatOfInt n := by
  have hdigits : Nat.ofDigitChars 10 ((ofNat n).whole ++ (ofNat n).fraction) 0 = n := by
    change Nat.ofDigitChars 10 (Decimal.digitsOf n ++ []) 0 = n
    rw [List.append_nil]
    exact Nat.ofDigitChars_ten_toDigits
  rw [value, hdigits]
  exact Grid.floatOfDecimal_eq n

end Gameroom.Expression.Numeral
