import NrfProjects.Encoding.Text

/-! # Bytes as hexadecimal text

`hexByte` prints a byte as `%02x` does. `scanBytes` reads bytes back, with any white space between
them. A text that `Prints` some bytes is read as these, whatever follows it. -/

namespace Encoding
set_option autoImplicit false

def hexDigit (d : ℕ) : UInt8 := if d < 10 then .ofNat (48 + d) else .ofNat (87 + d)

def hexByte (b : UInt8) : List UInt8 := [hexDigit (b.toNat / 16), hexDigit (b.toNat % 16)]

def hexValue (c : UInt8) : Option ℕ :=
  if 48 ≤ c.toNat ∧ c.toNat ≤ 57 then some (c.toNat - 48)
  else if 97 ≤ c.toNat ∧ c.toNat ≤ 102 then some (c.toNat - 87)
  else none

def scanBytes : List UInt8 → Option (List UInt8)
  | [] => some []
  | [c] => if isSpace c then some [] else none
  | c :: d :: s =>
    if isSpace c then scanBytes (d :: s)
    else do
      let high ← hexValue c
      let low ← hexValue d
      let bytes ← scanBytes s
      return .ofNat (16 * high + low) :: bytes

def Prints (text bytes : List UInt8) : Prop :=
  ∀ s, scanBytes (text ++ s) = (scanBytes s).map (bytes ++ ·)

/-! ## One digit -/

theorem hexDigit_toNat {d : ℕ} (hd : d < 16) :
    (hexDigit d).toNat = if d < 10 then 48 + d else 87 + d := by
  unfold hexDigit
  split_ifs with h
  · rw [UInt8.toNat_ofNat']
    omega
  · rw [UInt8.toNat_ofNat']
    omega

theorem hexValue_hexDigit {d : ℕ} (hd : d < 16) : hexValue (hexDigit d) = some d := by
  have hdigit := hexDigit_toNat hd
  unfold hexValue
  by_cases h : d < 10
  · rw [if_pos h] at hdigit
    rw [if_pos (by omega), hdigit, Nat.add_sub_cancel_left]
  · rw [if_neg h] at hdigit
    rw [if_neg (by omega), if_pos (by omega), hdigit, Nat.add_sub_cancel_left]

theorem isSpace_hexDigit {d : ℕ} (hd : d < 16) : isSpace (hexDigit d) = false := by
  have hdigit := hexDigit_toNat hd
  have hlarge : 48 ≤ (hexDigit d).toNat := by
    split_ifs at hdigit with h
    · omega
    · omega
  have hne : hexDigit d ≠ 32 := by
    intro heq
    rw [heq] at hlarge
    exact absurd hlarge (by decide)
  unfold isSpace
  simp only [hne, decide_false, Bool.false_or, Bool.and_eq_false_iff, decide_eq_false_iff_not]
  omega

/-! ## What was printed is read back -/

theorem scanBytes_space {c : UInt8} (hc : isSpace c = true) (s : List UInt8) :
    scanBytes (c :: s) = scanBytes s := by
  cases s with
  | nil => simp [scanBytes, hc]
  | cons d s => rw [scanBytes, if_pos hc]

theorem scanBytes_hexByte (b : UInt8) (s : List UInt8) :
    scanBytes (hexByte b ++ s) = (scanBytes s).map (b :: ·) := by
  have hb := b.toNat_lt
  have hhigh : b.toNat / 16 < 16 := by omega
  have hlow : b.toNat % 16 < 16 := by omega
  have hbyte : 16 * (b.toNat / 16) + b.toNat % 16 = b.toNat := Nat.div_add_mod _ _
  simp only [hexByte, List.cons_append, List.nil_append, scanBytes, isSpace_hexDigit hhigh,
    hexValue_hexDigit hhigh, hexValue_hexDigit hlow, Bool.false_eq_true, if_false,
    Option.bind_eq_bind, Option.bind_some, hbyte, UInt8.ofNat_toNat]
  cases scanBytes s with
  | none => rfl
  | some bytes => rfl

theorem prints_nil : Prints [] [] := by
  intro s
  simp

theorem prints_space {c : UInt8} (hc : isSpace c = true) : Prints [c] [] := by
  intro s
  simp [scanBytes_space hc]

theorem prints_hexByte (b : UInt8) : Prints (hexByte b) [b] := by
  intro s
  exact scanBytes_hexByte b s

theorem Prints.append {text text' bytes bytes' : List UInt8} (h : Prints text bytes)
    (h' : Prints text' bytes') : Prints (text ++ text') (bytes ++ bytes') := by
  intro s
  rw [List.append_assoc, h, h', Option.map_map]
  congr 1
  funext x
  exact (List.append_assoc bytes bytes' x).symm

/-- Bytes with white space between them. -/
theorem prints_intercalate {sep : List UInt8} (hsep : Prints sep []) (bytes : List UInt8) :
    Prints (sep.intercalate (bytes.map hexByte)) bytes := by
  induction bytes with
  | nil => exact prints_nil
  | cons b bytes ih =>
    cases bytes with
    | nil =>
      have hone := prints_hexByte b
      simpa [List.intercalate] using hone
    | cons c bytes =>
      have hcons := ((prints_hexByte b).append hsep).append ih
      simpa [List.intercalate, List.append_assoc] using hcons

theorem Prints.scanBytes {text bytes : List UInt8} (h : Prints text bytes) :
    scanBytes text = some bytes := by
  have hall := h []
  simpa [Encoding.scanBytes] using hall

end Encoding
