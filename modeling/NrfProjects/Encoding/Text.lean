import Mathlib.Data.Nat.Digits.Lemmas

/-! # Decimal numbers in ASCII text

`intText` prints a number as `%d` does. `scanInt` and `scanLiteral` read one back as `sscanf` does:
white space in a format stands for any run of white space, `%d` skips white space, and a number
ends where its digits end. -/

namespace Encoding
set_option autoImplicit false

def ascii (s : String) : List UInt8 := s.toList.map fun c => c.toNat.toUInt8

/-! ## Printing -/

def digit (d : ℕ) : UInt8 := UInt8.ofNat (48 + d)

def natText (n : ℕ) : List UInt8 :=
  if n = 0 then [digit 0] else ((Nat.digits 10 n).map digit).reverse

def minusSign : UInt8 := 45

def plusSign : UInt8 := 43

def intText (n : ℤ) : List UInt8 :=
  if n < 0 then minusSign :: natText n.natAbs else natText n.natAbs

/-! ## Scanning -/

def isDigit (b : UInt8) : Bool := 48 ≤ b.toNat && b.toNat ≤ 57

def isSpace (b : UInt8) : Bool := b = 32 || (9 ≤ b.toNat && b.toNat ≤ 13)

def digitsValue (l : List UInt8) : ℕ := l.foldl (fun v b => 10 * v + (b.toNat - 48)) 0

def scanNat (s : List UInt8) : Option ℕ :=
  match s.takeWhile isDigit with
  | [] => none
  | b :: bs => some (digitsValue (b :: bs))

/-- `%d`: white space, a sign, and the longest run of digits, which must not be empty. -/
def scanInt (s : List UInt8) : Option ℤ :=
  match s.dropWhile isSpace with
  | [] => none
  | b :: bs =>
    if b = minusSign then (scanNat bs).map fun n : ℕ => -(n : ℤ)
    else if b = plusSign then (scanNat bs).map fun n : ℕ => (n : ℤ)
    else (scanNat (b :: bs)).map fun n : ℕ => (n : ℤ)

/-- Match the literal part of a format; the answer is the text after it. -/
def scanLiteral : List UInt8 → List UInt8 → Option (List UInt8)
  | [], s => some s
  | c :: cs, s =>
    if isSpace c then scanLiteral cs (s.dropWhile isSpace)
    else
      match s with
      | [] => none
      | b :: bs => if b = c then scanLiteral cs bs else none

/-! ## What was printed is read back -/

theorem digit_toNat {d : ℕ} (h : d < 10) : (digit d).toNat = 48 + d := by
  unfold digit
  rw [UInt8.toNat_ofNat']
  omega

theorem isDigit_digit {d : ℕ} (h : d < 10) : isDigit (digit d) = true := by
  unfold isDigit
  rw [digit_toNat h]
  simp only [Bool.and_eq_true, decide_eq_true_eq]
  omega

theorem isDigit_of_mem_natText {n : ℕ} {b : UInt8} (h : b ∈ natText n) : isDigit b = true := by
  unfold natText at h
  by_cases hn : n = 0
  · rw [if_pos hn, List.mem_singleton] at h
    rw [h]
    exact isDigit_digit (by decide)
  · rw [if_neg hn, List.mem_reverse, List.mem_map] at h
    obtain ⟨d, hd, rfl⟩ := h
    exact isDigit_digit (Nat.digits_lt_base (by decide) hd)

theorem natText_ne_nil (n : ℕ) : natText n ≠ [] := by
  unfold natText
  by_cases hn : n = 0
  · rw [if_pos hn]
    exact List.cons_ne_nil _ _
  · rw [if_neg hn, ne_eq, List.reverse_eq_nil_iff, List.map_eq_nil_iff]
    exact Nat.digits_ne_nil_iff_ne_zero.mpr hn

theorem digitsValue_natText (n : ℕ) : digitsValue (natText n) = n := by
  unfold natText
  by_cases hn : n = 0
  · rw [if_pos hn, hn]
    decide
  · have hstep : ∀ ds : List ℕ, (∀ d ∈ ds, d < 10) →
        (ds.map digit).foldr (fun b v => 10 * v + (b.toNat - 48)) 0 = Nat.ofDigits 10 ds := by
      intro ds hds
      induction ds with
      | nil => rfl
      | cons d ds ih =>
        have hd := digit_toNat (hds d List.mem_cons_self)
        have ih := ih fun d' hd' => hds d' (List.mem_cons_of_mem d hd')
        rw [List.map_cons, List.foldr_cons, ih, hd, Nat.ofDigits_cons]
        omega
    rw [if_neg hn, digitsValue, List.foldl_reverse,
      hstep _ fun d hd => Nat.digits_lt_base (by decide) hd, Nat.ofDigits_digits]

theorem length_natText_le {n k : ℕ} (hk : 0 < k) (h : n < 10 ^ k) : (natText n).length ≤ k := by
  unfold natText
  by_cases hn : n = 0
  · rw [if_pos hn]
    exact hk
  · rw [if_neg hn, List.length_reverse, List.length_map]
    exact (Nat.digits_length_le_iff (by decide) n).mpr h

/-- A number ends where its digits end. -/
theorem scanNat_natText {n : ℕ} {rest : List UInt8} (h : ∀ b ∈ rest.head?, isDigit b = false) :
    scanNat (natText n ++ rest) = some n := by
  have htake : (natText n ++ rest).takeWhile isDigit = natText n := by
    rw [List.takeWhile_append_of_pos fun b hb => isDigit_of_mem_natText hb]
    cases rest with
    | nil => simp
    | cons b bs => simp [h b rfl]
  unfold scanNat
  rw [htake]
  cases hn : natText n with
  | nil => exact absurd hn (natText_ne_nil n)
  | cons b bs =>
    show some (digitsValue (b :: bs)) = some n
    rw [← hn, digitsValue_natText]

theorem not_space_of_digit {b : UInt8} (h : isDigit b = true) : isSpace b = false := by
  unfold isDigit at h
  unfold isSpace
  simp only [Bool.and_eq_true, decide_eq_true_eq] at h
  have hne : b ≠ 32 := by
    rintro rfl
    exact absurd h.1 (by decide)
  simp only [hne, decide_false, Bool.false_or, Bool.and_eq_false_iff, decide_eq_false_iff_not]
  omega

theorem dropWhile_space {b : UInt8} {bs : List UInt8} (h : isSpace b = false) :
    (b :: bs).dropWhile isSpace = b :: bs := by
  rw [List.dropWhile_cons_of_neg (by rw [h]; decide)]

/-- **Round trip.** A printed number is read back, whatever follows it but a digit. -/
theorem scanInt_intText {n : ℤ} {rest : List UInt8} (h : ∀ b ∈ rest.head?, isDigit b = false) :
    scanInt (intText n ++ rest) = some n := by
  have hnat := scanNat_natText (n := n.natAbs) h
  unfold intText scanInt
  by_cases hneg : n < 0
  · rw [if_pos hneg, List.cons_append, dropWhile_space (by decide)]
    have hvalue : -(n.natAbs : ℤ) = n := by omega
    simp only [if_true, hnat, Option.map_some, hvalue]
  · rw [if_neg hneg]
    cases htext : natText n.natAbs with
    | nil => exact absurd htext (natText_ne_nil _)
    | cons b bs =>
      have hb : isDigit b = true := isDigit_of_mem_natText (htext ▸ List.mem_cons_self)
      have hminus : b ≠ minusSign := by
        rintro rfl
        exact absurd hb (by decide)
      have hplus : b ≠ plusSign := by
        rintro rfl
        exact absurd hb (by decide)
      rw [htext, List.cons_append] at hnat
      rw [List.cons_append, dropWhile_space (not_space_of_digit hb)]
      have hvalue : (n.natAbs : ℤ) = n := by omega
      simp only [hminus, hplus, if_false, hnat, Option.map_some, hvalue]

theorem length_intText_le {n : ℤ} {k : ℕ} (hk : 0 < k) (h : n.natAbs < 10 ^ k) :
    (intText n).length ≤ k + 1 := by
  have hlen := length_natText_le hk h
  unfold intText
  by_cases hneg : n < 0
  · rw [if_pos hneg, List.length_cons]
    omega
  · rw [if_neg hneg]
    omega

end Encoding
