import Mathlib
import Gameroom.Text.Blank
import Gameroom.Text.DecimalDigit
import Gameroom.Text.WordChar

/-! How the classes of characters lie to one another. -/

namespace Gameroom.Text

theorem inRanges_iff {table : List (Nat × Nat)} {code : Nat} :
    inRanges table code ↔ ∃ range ∈ table, range.1 ≤ code ∧ code ≤ range.2 := by
  simp [inRanges]

theorem isWord_of_ascii {c : Char} (h : c.toNat < 128) : isWord c = (c.isAlphanum || c == '_') := by
  rw [isWord, if_pos h]

theorem toNat_of_isDigit {c : Char} (h : c.isDigit) : 48 ≤ c.toNat ∧ c.toNat ≤ 57 := by
  simpa [Char.isDigit, UInt32.le_iff_toNat_le] using h

theorem isDigit_of_ascii {c : Char} (h : c.isDigit) : isDigit c := by
  have hrange := toNat_of_isDigit h
  have hfirst : (decide (48 ≤ c.toNat) && decide (c.toNat ≤ 48 + 9)) = true := by simp; omega
  rw [isDigit, digitOf?, zeros, List.find?_cons, hfirst]
  rfl

theorem zeros_in_letterRanges : (zeros.all fun first => first == 48 ||
    (128 ≤ first && letterRanges.any fun range => range.1 ≤ first && first + 9 ≤ range.2)) := by
  decide +kernel

theorem isWord_of_isDigit {c : Char} (h : isDigit c) : isWord c := by
  obtain ⟨d, hd⟩ := Option.isSome_iff_exists.1 h
  obtain ⟨first, hfirst, -⟩ := Option.map_eq_some_iff.1 hd
  have hrange := List.find?_some hfirst
  rw [Bool.and_eq_true, decide_eq_true_iff, decide_eq_true_iff] at hrange
  have hscript := List.all_eq_true.1 zeros_in_letterRanges first (List.mem_of_find?_eq_some hfirst)
  rw [Bool.or_eq_true, beq_iff_eq, Bool.and_eq_true, decide_eq_true_iff,
    List.any_eq_true] at hscript
  -- The digits of ASCII are no part of the table of letters.
  rcases hscript with rfl | ⟨hlow, range, hmem, hin⟩
  · have hdigit : c.isDigit := by simpa [Char.isDigit, UInt32.le_iff_toNat_le] using hrange
    rw [isWord_of_ascii (by omega), Char.isAlphanum, hdigit]
    simp
  · rw [Bool.and_eq_true, decide_eq_true_iff, decide_eq_true_iff] at hin
    rw [isWord, if_neg (by omega), inRanges_iff]
    exact ⟨range, hmem, by omega, by omega⟩

theorem zero_le_of_isWord {c : Char} (h : isWord c) : 48 ≤ c.toNat := by
  by_contra hlow
  rw [isWord_of_ascii (by omega)] at h
  simp only [Char.isAlphanum, Char.isAlpha, Char.isUpper, Char.isLower, Char.isDigit,
    Bool.or_eq_true, Bool.and_eq_true, decide_eq_true_eq, beq_iff_eq, ge_iff_le,
    UInt32.le_iff_toNat_le] at h
  have htoNat : c.toNat = c.val.toNat := rfl
  rcases h with ((⟨hge, -⟩ | ⟨hge, -⟩) | ⟨hge, -⟩) | rfl
  · exact hlow (le_trans (by decide) hge)
  · exact hlow (le_trans (by decide) hge)
  · exact hlow hge
  · exact hlow (by decide)

theorem blankRanges_apart : (blankRanges.all fun blank => blank.2 < 33 ||
    (128 ≤ blank.1 && letterRanges.all fun range => blank.2 < range.1 || range.2 < blank.1)) := by
  decide +kernel

theorem not_isBlank_of_isWord {c : Char} (h : isWord c) : isBlank c = false := by
  by_contra hblank
  rw [Bool.not_eq_false, isBlank, inRanges_iff] at hblank
  obtain ⟨blank, hmem, hin⟩ := hblank
  have hapart := List.all_eq_true.1 blankRanges_apart blank hmem
  rw [Bool.or_eq_true, decide_eq_true_iff, Bool.and_eq_true, decide_eq_true_iff,
    List.all_eq_true] at hapart
  rcases hapart with hlow | ⟨hhigh, hapart⟩
  · have := zero_le_of_isWord h
    omega
  · rw [isWord, if_neg (by omega), inRanges_iff] at h
    obtain ⟨range, hletter, hrange⟩ := h
    have := hapart range hletter
    rw [Bool.or_eq_true, decide_eq_true_iff, decide_eq_true_iff] at this
    omega

/-! ### Runs of characters -/

theorem dropWhile_eq_self {α : Type} {p : α → Bool} {l : List α} (h : ∀ a ∈ l, p a = false) :
    l.dropWhile p = l := by
  cases l with
  | nil => rfl
  | cons a l => rw [List.dropWhile_cons_of_neg (by simp [h a List.mem_cons_self])]

theorem takeWhile_run {p : Char → Bool} {l l' : List Char} (h : ∀ c ∈ l, p c)
    (h' : ∀ c ∈ l'.head?, p c = false) : (l ++ l').takeWhile p = l := by
  rw [List.takeWhile_append_of_pos h]
  cases l' with
  | nil => simp
  | cons c l' => simp [h' c rfl]

theorem dropWhile_run {p : Char → Bool} {l l' : List Char} (h : ∀ c ∈ l, p c)
    (h' : ∀ c ∈ l'.head?, p c = false) : (l ++ l').dropWhile p = l' := by
  rw [List.dropWhile_append_of_pos h]
  cases l' with
  | nil => simp
  | cons c l' => simp [h' c rfl]

end Gameroom.Text
