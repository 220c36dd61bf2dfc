import NrfProjects.Encoding.Hex
import NrfProjects.Littlefs.Pattern

/-! # The printed test pattern

`print_pattern` prints rows of sixteen bytes, then what is left, byte by byte. It answers only if
every access is inside the array. -/

namespace NrfProjects.Littlefs
set_option autoImplicit false
open Encoding

/-- `LOG_PRINTK` of the eight bytes from `p[i]` on, with `last` after them. -/
def printEight (p : List UInt8) (i : ℕ) (last : String) : Option (List UInt8) := do
  let bytes ← (List.range' i 8).mapM (load p)
  return (ascii " ").intercalate (bytes.map hexByte) ++ ascii last

def printRow (p : List UInt8) (x : ℕ × List UInt8) (k : ℕ) : Option (ℕ × List UInt8) := do
  let left ← printEight p x.1 " "
  let right ← printEight p (x.1 + 8) "\n"
  let mark := if (k + 1) % 32 = 0 then ascii "\n" else []
  return (x.1 + 16, x.2 ++ (left ++ (right ++ mark)))

def printByte (p : List UInt8) (text : List UInt8) (i : ℕ) : Option (List UInt8) := do
  let b ← load p i
  return text ++ (hexByte b ++ ascii " ")

def printPattern (p : List UInt8) (size : UInt16) : Option (List UInt8) := do
  let j := size.toNat / 16
  let (i, text) ← (List.range' 0 j).foldlM (printRow p) (0, [])
  let text ← (List.range' i (size.toNat - i)).foldlM (printByte p) text
  return text ++ ascii "\n"

variable {p text bytes : List UInt8} {i n : ℕ} {size : UInt16}

/-! ## Eight bytes -/

theorem mapM_load (h : i + n ≤ p.length) :
    (List.range' i n).mapM (load p) = some ((p.drop i).take n) := by
  induction n generalizing i with
  | zero => rfl
  | succ n ih =>
    have hi : i < p.length := by omega
    have hload : load p i = some p[i] := List.getElem?_eq_getElem hi
    rw [List.range'_succ, List.mapM_cons, hload, ih (by omega), List.drop_eq_getElem_cons hi]
    rfl

theorem prints_blank : Prints (ascii " ") [] := prints_space (by decide)

theorem prints_newline : Prints (ascii "\n") [] := prints_space (by decide)

theorem printEight_prints {last : String} (hlast : Prints (ascii last) []) (h : i + 8 ≤ p.length) :
    ∃ t, printEight p i last = some t ∧ Prints t ((p.drop i).take 8) := by
  have hbytes := prints_intercalate prints_blank ((p.drop i).take 8)
  have hprints := hbytes.append hlast
  rw [List.append_nil] at hprints
  refine ⟨_, ?_, hprints⟩
  rw [printEight, mapM_load h]
  rfl

/-! ## The loops -/

/-- What the first loop has printed. -/
structure Rows (p : List UInt8) (k : ℕ) (x : ℕ × List UInt8) : Prop where
  position : x.1 = 16 * k
  prints : Prints x.2 (p.take (16 * k))

theorem printRow_rows {k : ℕ} {x : ℕ × List UInt8} (h : 16 * k + 16 ≤ p.length)
    (hx : Rows p k x) : ∃ y, printRow p x k = some y ∧ Rows p (k + 1) y := by
  obtain ⟨i, text⟩ := x
  obtain ⟨hi, htext⟩ := hx
  obtain rfl : i = 16 * k := hi
  have hlow : 16 * k + 8 ≤ p.length := by omega
  have hhigh : 16 * k + 8 + 8 ≤ p.length := by omega
  obtain ⟨left, hleft, hl⟩ := printEight_prints prints_blank hlow
  obtain ⟨right, hright, hr⟩ := printEight_prints prints_newline hhigh
  have hmark : Prints (if (k + 1) % 32 = 0 then ascii "\n" else []) [] := by
    split_ifs
    · exact prints_newline
    · exact prints_nil
  have htake : p.take (16 * (k + 1)) = p.take (16 * k) ++
      ((p.drop (16 * k)).take 8 ++ ((p.drop (16 * k + 8)).take 8 ++ [])) := by
    have hadd : 16 * (k + 1) = 16 * k + (8 + 8) := by omega
    rw [List.append_nil, hadd, List.take_add, List.take_add, List.drop_drop]
  refine ⟨(16 * k + 16, text ++ (left ++ (right ++ if (k + 1) % 32 = 0 then ascii "\n" else []))),
    ?_, rfl, ?_⟩
  · simp only [printRow, hleft, hright, Option.bind_eq_bind, Option.bind_some, Option.pure_def]
  · rw [htake]
    exact htext.append (hl.append (hr.append hmark))

/-- The second loop. -/
theorem printBytes_prints (h : i + n ≤ p.length) (htext : Prints text bytes) :
    ∃ t, (List.range' i n).foldlM (printByte p) text = some t ∧
      Prints t (bytes ++ (p.drop i).take n) := by
  induction n generalizing i text bytes with
  | zero =>
    refine ⟨text, rfl, ?_⟩
    rw [List.take_zero, List.append_nil]
    exact htext
  | succ n ih =>
    have hi : i < p.length := by omega
    have hload : load p i = some p[i] := List.getElem?_eq_getElem hi
    have hbyte := htext.append ((prints_hexByte p[i]).append prints_blank)
    obtain ⟨t, ht, hprints⟩ := ih (i := i + 1) (by omega) hbyte
    refine ⟨t, ?_, ?_⟩
    · have hround : printByte p text i = some (text ++ (hexByte p[i] ++ ascii " ")) := by
        rw [printByte, hload]
        rfl
      rw [List.range'_succ, List.foldlM_cons, hround]
      exact ht
    · rw [List.drop_eq_getElem_cons hi, List.take_succ_cons]
      rw [List.append_nil, List.append_assoc] at hprints
      exact hprints

/-! ## The whole text -/

theorem printPattern_prints (h : size.toNat ≤ p.length) :
    ∃ t, printPattern p size = some t ∧ Prints t (p.take size.toNat) := by
  obtain ⟨⟨i, text⟩, hrows, hi, htext⟩ := foldlM_range'_some (size.toNat / 16) 1
    (fun k x => Rows p k x) (f := printRow p) (b := (0, [])) ⟨rfl, prints_nil⟩ fun k hk x hx => by
      rw [Nat.one_mul]
      exact printRow_rows (by omega) hx
  obtain rfl : i = 16 * (size.toNat / 16) := hi
  have hrest : 16 * (size.toNat / 16) + (size.toNat - 16 * (size.toNat / 16)) ≤ p.length := by
    omega
  obtain ⟨t, ht, hprints⟩ := printBytes_prints hrest htext
  have hsize : size.toNat = 16 * (size.toNat / 16) + (size.toNat - 16 * (size.toNat / 16)) := by
    omega
  refine ⟨t ++ ascii "\n", ?_, ?_⟩
  · simp only [printPattern, hrows, Option.bind_eq_bind, Option.bind_some, ht, Option.pure_def]
  · have hall := hprints.append prints_newline
    rw [List.append_nil, ← List.take_add, ← hsize] at hall
    exact hall

/-- **The dump is the pattern.** After any number of updates, `print_pattern` accesses the array only
inside, and its text, read back, is the array. -/
theorem pattern_printed (size : UInt16) (p : List UInt8) (inc : UInt8) (k : ℕ)
    (hsize : 1 ≤ size.toNat) (hp : p.length = size.toNat) :
    ∃ q text, patternTimes p size.toNat inc k = some q ∧ printPattern q size = some text ∧
      scanBytes text = some q := by
  obtain ⟨q, hq, hholds⟩ := patternTimes_holds inc k hsize hp
  obtain ⟨text, htext, hprints⟩ := printPattern_prints (Nat.le_of_eq hholds.length.symm)
  refine ⟨q, text, hq, htext, ?_⟩
  rw [hprints.scanBytes, List.take_of_length_le (Nat.le_of_eq hholds.length)]

/-- One row and a byte, after two updates. -/
theorem pattern_printed_seventeen :
    ∃ q text, patternTimes (List.replicate 17 0) 17 0x1 2 = some q ∧
      printPattern q 17 = some text ∧ scanBytes text = some q :=
  pattern_printed 17 _ 0x1 2 (by decide) List.length_replicate

example : printPattern [0x01, 0xAA, 0x55] 3 = some (ascii "01 aa 55 \n") := by decide

end NrfProjects.Littlefs
