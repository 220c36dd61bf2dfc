import NrfProjects.Littlefs.Main

/-! # The text file can be read back

The decoder sees 31 bytes of the text and no more; every 32-bit count fits into them. -/

namespace NrfProjects.Littlefs
set_option autoImplicit false
open Encoding

def IsInt32 (n : ℤ) : Prop := -2 ^ 31 ≤ n ∧ n < 2 ^ 31

theorem toInt32_isInt32 (n : ℤ) : IsInt32 (toInt32 n) := by
  have hlo := Int.le_bmod (x := n) (m := 2 ^ 32) (by decide)
  have hhi := Int.bmod_lt (x := n) (m := 2 ^ 32) (by decide)
  unfold IsInt32 toInt32
  norm_num at hlo hhi ⊢
  omega

theorem toInt32_of_isInt32 {n : ℤ} (h : IsInt32 n) : toInt32 n = n := by
  obtain ⟨hlo, hhi⟩ := h
  unfold toInt32
  apply Int.bmod_eq_of_le <;> norm_num <;> omega

theorem length_intText_int32 {n : ℤ} (h : IsInt32 n) : (intText n).length ≤ 11 := by
  apply length_intText_le (by decide)
  obtain ⟨hlo, hhi⟩ := h
  omega

/-- The text is never cut off by its buffer. -/
theorem snprintf_textContent {writeCount time : ℤ} (hcount : IsInt32 writeCount)
    (htime : IsInt32 time) : snprintf 256 (textContent writeCount time) = textContent writeCount time := by
  have hc := length_intText_int32 hcount
  have ht := length_intText_int32 htime
  have hformat : countFormat.length = 13 := by decide
  have hafter : afterCount.length = 65 := by decide
  have hms : (ascii " ms\n").length = 4 := by decide
  apply List.take_of_length_le
  simp only [textContent, List.length_append, hformat, hafter, hms]
  omega

theorem textContent_ne_nil (writeCount time : ℤ) : textContent writeCount time ≠ [] := by
  have hformat : countFormat ≠ [] := by decide
  simp [textContent, hformat]

/-- The decoder's format matches the text up to the count. -/
theorem scanLiteral_count {rest : List UInt8} (h : rest.dropWhile isSpace = rest) :
    scanLiteral countFormat (countFormat ++ rest) = some rest := by
  have hformat : countFormat = [87, 114, 105, 116, 101, 32, 99, 111, 117, 110, 116, 58, 32] := by
    decide
  rw [hformat]
  simp [scanLiteral, isSpace] at h ⊢
  exact h

theorem dropWhile_intText (n : ℤ) (rest : List UInt8) :
    (intText n ++ rest).dropWhile isSpace = intText n ++ rest := by
  unfold intText
  by_cases hneg : n < 0
  · rw [if_pos hneg]
    exact dropWhile_space (by decide)
  · rw [if_neg hneg]
    cases htext : natText n.natAbs with
    | nil => exact absurd htext (natText_ne_nil _)
    | cons b bs =>
      have hb : isDigit b = true := isDigit_of_mem_natText (htext ▸ List.mem_cons_self)
      exact dropWhile_space (not_space_of_digit hb)

theorem intText_ne_zero {n : ℤ} {b : UInt8} (h : b ∈ intText n) : b ≠ 0 := by
  have hdigit : ∀ m : ℕ, b ∈ natText m → b ≠ 0 := by
    intro m hb hzero
    have := isDigit_of_mem_natText hb
    rw [hzero] at this
    exact absurd this (by decide)
  unfold intText at h
  by_cases hneg : n < 0
  · rw [if_pos hneg, List.mem_cons] at h
    rcases h with rfl | h
    · decide
    · exact hdigit _ h
  · rw [if_neg hneg] at h
    exact hdigit _ h

def newline : UInt8 := 10

/-- The first line of a text file with count `n`. -/
def countLine (n : ℤ) : List UInt8 := countFormat ++ (intText n ++ [newline])

theorem textContent_eq (writeCount time : ℤ) :
    ∃ rest, textContent writeCount time = countLine writeCount ++ rest := by
  have hafter : afterCount = newline :: afterCount.tail := by decide
  refine ⟨afterCount.tail ++ (intText time ++ ascii " ms\n"), ?_⟩
  rw [textContent, countLine, hafter]
  simp

/-- **The decoder.** The count is read back from the first 31 bytes of any file that begins with its
line. -/
theorem sscanfCount_countLine {n : ℤ} (h : IsInt32 n) (rest : List UInt8) (writeCount : ℤ) :
    sscanfCount ((countLine n ++ rest).take 31) writeCount = n := by
  have hlen := length_intText_int32 h
  have hformat : countFormat.length = 13 := by decide
  -- the newline is among the 31 bytes
  obtain ⟨k, hk⟩ : ∃ k, 31 = countFormat.length + ((intText n).length + (k + 1)) :=
    ⟨17 - (intText n).length, by omega⟩
  have htake : (countLine n ++ rest).take 31 =
      countFormat ++ (intText n ++ newline :: rest.take k) := by
    rw [hk, countLine, List.append_assoc, List.append_assoc, List.take_length_add_append,
      List.take_length_add_append]
    rfl
  have hnonzero : ((countLine n ++ rest).take 31).takeWhile (· ≠ 0) =
      countFormat ++ (intText n ++ newline :: (rest.take k).takeWhile (· ≠ 0)) := by
    have hall : countFormat.all (· ≠ 0) = true := by rfl
    have hzero : ∀ b ∈ countFormat, decide (b ≠ 0) = true := List.all_eq_true.mp hall
    have hnumber : ∀ b ∈ intText n, decide (b ≠ 0) = true := fun b hb =>
      decide_eq_true (intText_ne_zero hb)
    rw [htake, List.takeWhile_append_of_pos hzero, List.takeWhile_append_of_pos hnumber,
      List.takeWhile_cons_of_pos (by decide)]
  have hscan : scanInt (intText n ++ newline :: (rest.take k).takeWhile (· ≠ 0)) = some n := by
    apply scanInt_intText
    intro b hb
    rw [List.head?_cons, Option.mem_some_iff] at hb
    rw [← hb]
    decide
  rw [sscanfCount, hnonzero, scanLiteral_count (dropWhile_intText n _), Option.bind_some, hscan]
  exact toInt32_of_isInt32 h

end NrfProjects.Littlefs
