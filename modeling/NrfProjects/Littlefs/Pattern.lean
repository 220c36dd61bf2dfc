import Mathlib.Data.Nat.Notation
import Mathlib.Tactic.SplitIfs

/-! # The test pattern of the littlefs demo

The pattern lies in an array, and both functions answer only if every access is inside it. Its size
is a `uint16_t` in the source; the two functions do the same at any size, so it is a natural number
here. -/

namespace NrfProjects.Littlefs
set_option autoImplicit false

/-! ## Array accesses -/

def load (p : List UInt8) (i : ℕ) : Option UInt8 := p[i]?

def store (p : List UInt8) (i : ℕ) (v : UInt8) : Option (List UInt8) :=
  if i < p.length then some (p.set i v) else none

def memset (p : List UInt8) (v : UInt8) (size : ℕ) : Option (List UInt8) :=
  if size ≤ p.length then some (List.replicate size v ++ p.drop size) else none

/-- The array has `size` bytes, and byte `i` of it is `f i`. -/
structure Holds (size : ℕ) (f : ℕ → UInt8) (p : List UInt8) : Prop where
  length : p.length = size
  byte : ∀ i < size, p[i]? = some (f i)

variable {size : ℕ} {f g : ℕ → UInt8} {p : List UInt8}

theorem holds_getD (hp : p.length = size) : Holds size (fun i => p.getD i 0) p := by
  refine ⟨hp, fun i hi => ?_⟩
  rw [List.getD_eq_getElem?_getD, List.getElem?_eq_getElem (by omega), Option.getD_some]

theorem Holds.congr (h : Holds size f p) (hfg : ∀ i < size, f i = g i) : Holds size g p :=
  ⟨h.length, fun i hi => (h.byte i hi).trans (congrArg some (hfg i hi))⟩

theorem Holds.load {i : ℕ} (h : Holds size f p) (hi : i < size) : load p i = some (f i) :=
  h.byte i hi

theorem Holds.store {i : ℕ} (h : Holds size f p) (hi : i < size) (v : UInt8) :
    ∃ q, store p i v = some q ∧ Holds size (fun j => if i = j then v else f j) q := by
  have hlen : i < p.length := by rw [h.length]; exact hi
  refine ⟨p.set i v, if_pos hlen, ?_, fun j hj => ?_⟩
  · rw [List.length_set, h.length]
  · rw [List.getElem?_set]
    split_ifs with hij
    · rfl
    · exact h.byte j hj

theorem memset_holds (hp : p.length = size) (v : UInt8) :
    ∃ q, memset p v size = some q ∧ Holds size (fun _ => v) q := by
  refine ⟨_, if_pos (Nat.le_of_eq hp.symm), ?_, fun i hi => ?_⟩
  · simp [hp]
  · rw [List.getElem?_append_left (by simpa using hi)]
    simp [hi]

/-- A counted loop whose rounds all answer. -/
theorem foldlM_range'_some {β : Type} (n step : ℕ) (P : ℕ → β → Prop) {f : β → ℕ → Option β}
    {b : β} (h0 : P 0 b)
    (hstep : ∀ j < n, ∀ b, P j b → ∃ b', f b (step * j) = some b' ∧ P (j + 1) b') :
    ∃ b', (List.range' 0 n step).foldlM f b = some b' ∧ P n b' := by
  induction n with
  | zero => exact ⟨b, rfl, h0⟩
  | succ n ih =>
    obtain ⟨b₁, h₁, hb₁⟩ := ih fun j hj => hstep j (Nat.lt_succ_of_lt hj)
    obtain ⟨b₂, h₂, hb₂⟩ := hstep n (Nat.lt_succ_self n) b₁ hb₁
    refine ⟨b₂, ?_, hb₂⟩
    rw [List.range'_concat, Nat.zero_add, List.foldlM_append, h₁]
    simp [h₂]

/-! ## The pattern -/

def initRound (x : List UInt8 × UInt8) (i : ℕ) : Option (List UInt8 × UInt8) := do
  let p ← store x.1 i x.2
  return (p, x.2 + 1)

def initPattern (p : List UInt8) (size : ℕ) : Option (List UInt8) := do
  let p ← memset p 0x55 size
  let x ← (List.range' 0 ((size + 7) / 8) 8).foldlM initRound (p, 0x1)
  if size = 0 then none else store x.1 (size - 1) 0xAA

def incrRound (inc fill : UInt8) (p : List UInt8) (i : ℕ) : Option (List UInt8) :=
  if i % 8 = 0 then do
    let v ← load p i
    store p i (v + inc)
  else store p i fill

def incrPattern (p : List UInt8) (size : ℕ) (inc : UInt8) : Option (List UInt8) := do
  let first ← load p 0
  let fill := if first % 2 = 0 then 0xAA else 0x55
  let p ← (List.range (size - 1)).foldlM (incrRound inc fill) p
  if size = 0 then none else do
    let v ← load p (size - 1)
    store p (size - 1) (v + inc)

/-! ## What it is -/

/-- Byte `i` after `init_pattern`. -/
def initByte (size i : ℕ) : UInt8 :=
  if size - 1 = i then 0xAA else if i % 8 = 0 then .ofNat (i / 8 + 1) else 0x55

/-- The heads of the first `j` groups of eight are set. -/
def headsByte (j i : ℕ) : UInt8 := if i % 8 = 0 ∧ i / 8 < j then .ofNat (i / 8 + 1) else 0x55

theorem headsByte_succ (j i : ℕ) :
    (if 8 * j = i then .ofNat (j + 1) else headsByte j i) = headsByte (j + 1) i := by
  unfold headsByte
  by_cases h : 8 * j = i
  · subst h
    rw [if_pos rfl, if_pos (by omega), Nat.mul_div_cancel_left j (by decide)]
  · have hiff : i % 8 = 0 ∧ i / 8 < j ↔ i % 8 = 0 ∧ i / 8 < j + 1 := by omega
    rw [if_neg h]
    simp only [hiff]

theorem initRound_holds {x : List UInt8 × UInt8} {j : ℕ} (hj : 8 * j < size)
    (hx : Holds size (headsByte j) x.1) (hv : x.2 = .ofNat (j + 1)) :
    ∃ y, initRound x (8 * j) = some y ∧ Holds size (headsByte (j + 1)) y.1 ∧
      y.2 = .ofNat (j + 1 + 1) := by
  obtain ⟨q, hq, hqf⟩ := hx.store hj x.2
  refine ⟨(q, x.2 + 1), by simp [initRound, hq], hqf.congr fun i _ => ?_, ?_⟩
  · rw [hv]
    exact headsByte_succ j i
  · rw [hv]
    exact (UInt8.ofNat_add (j + 1) 1).symm

theorem initPattern_holds (hsize : 0 < size) (hp : p.length = size) :
    ∃ q, initPattern p size = some q ∧ Holds size (initByte size) q := by
  obtain ⟨p₁, h₁, hp₁⟩ := memset_holds hp 0x55
  have hstart : Holds size (headsByte 0) p₁ := hp₁.congr fun i _ => by simp [headsByte]
  obtain ⟨⟨p₂, v⟩, h₂, hp₂, -⟩ := foldlM_range'_some ((size + 7) / 8) 8
    (fun j (x : List UInt8 × UInt8) => Holds size (headsByte j) x.1 ∧ x.2 = .ofNat (j + 1))
    (b := (p₁, 0x1)) ⟨hstart, rfl⟩ fun j hj x hx => initRound_holds (by omega) hx.1 hx.2
  obtain ⟨p₃, h₃, hp₃⟩ := hp₂.store (i := size - 1) (by omega) 0xAA
  refine ⟨p₃, ?_, hp₃.congr fun i hi => ?_⟩
  · have hne : size ≠ 0 := by omega
    simp only [initPattern, Option.bind_eq_bind, h₁, h₂, Option.bind_some, if_neg hne, h₃]
  · have hlast : i / 8 < (size + 7) / 8 := by omega
    simp only [initByte, headsByte, hlast, and_true]

/-- What `incr_pattern` fills with, from the first byte it finds. -/
def fillByte (first : UInt8) : UInt8 := if first % 2 = 0 then 0xAA else 0x55

/-- A byte of the pattern after an update that has gone up to `j`. -/
def incrByte (inc first : UInt8) (f : ℕ → UInt8) (j i : ℕ) : UInt8 :=
  if i < j then if i % 8 = 0 then f i + inc else fillByte first else f i

theorem incrByte_succ (inc first : UInt8) (j i : ℕ) :
    (if j = i then if j % 8 = 0 then f j + inc else fillByte first
      else incrByte inc first f j i) = incrByte inc first f (j + 1) i := by
  unfold incrByte
  by_cases h : j = i
  · subst h
    rw [if_pos rfl, if_pos (Nat.lt_succ_self j)]
  · have hiff : i < j ↔ i < j + 1 := by omega
    rw [if_neg h]
    simp only [hiff]

theorem incrRound_holds {inc first : UInt8} {j : ℕ} {q : List UInt8} (hj : j < size)
    (hq : Holds size (incrByte inc first f j) q) :
    ∃ r, incrRound inc (fillByte first) q j = some r ∧
      Holds size (incrByte inc first f (j + 1)) r := by
  have hbyte : incrByte inc first f j j = f j := if_neg (Nat.lt_irrefl j)
  have hload : load q j = some (f j) := hbyte ▸ hq.load hj
  obtain ⟨r, hr, hrf⟩ := hq.store hj (if j % 8 = 0 then f j + inc else fillByte first)
  refine ⟨r, ?_, hrf.congr fun i _ => incrByte_succ inc first j i⟩
  unfold incrRound
  split_ifs with h8
  · rw [if_pos h8] at hr
    simp only [Option.bind_eq_bind, hload, Option.bind_some, hr]
  · rw [if_neg h8] at hr
    exact hr

theorem incrPattern_holds (inc : UInt8) (hsize : 0 < size) (hp : Holds size f p) :
    ∃ q, incrPattern p size inc = some q ∧
      Holds size (fun i => if size - 1 = i ∨ i % 8 = 0 then f i + inc else fillByte (f 0)) q := by
  have hstart : Holds size (incrByte inc (f 0) f 0) p := hp.congr fun i _ => by simp [incrByte]
  obtain ⟨p₁, h₁, hp₁⟩ := foldlM_range'_some (size - 1) 1
    (fun j q => Holds size (incrByte inc (f 0) f j) q) hstart
    fun j hj q hq => by rw [Nat.one_mul]; exact incrRound_holds (by omega) hq
  have hlast : incrByte inc (f 0) f (size - 1) (size - 1) = f (size - 1) :=
    if_neg (Nat.lt_irrefl _)
  have hload : load p₁ (size - 1) = some (f (size - 1)) := hlast ▸ hp₁.load (by omega)
  obtain ⟨p₂, h₂, hp₂⟩ := hp₁.store (i := size - 1) (by omega) (f (size - 1) + inc)
  refine ⟨p₂, ?_, hp₂.congr fun i hi => ?_⟩
  · have hne : size ≠ 0 := by omega
    have hloop : (List.range (size - 1)).foldlM
        (incrRound inc (if f 0 % 2 = 0 then 0xAA else 0x55)) p = some p₁ := by
      rw [List.range_eq_range']
      exact h₁
    simp only [incrPattern, Option.bind_eq_bind, hp.load hsize, Option.bind_some, if_neg hne,
      hloop, hload, h₂]
  · unfold incrByte
    by_cases h : size - 1 = i
    · subst h
      rw [if_pos rfl, if_pos (.inl rfl)]
    · have hlt : i < size - 1 := by omega
      simp only [h, hlt, if_false, if_true, false_or]

theorem initPattern_inside (hsize : 0 < size) (hp : p.length = size) :
    ∃ q, initPattern p size = some q ∧ q.length = size := by
  obtain ⟨q, hq, hqf⟩ := initPattern_holds hsize hp
  exact ⟨q, hq, hqf.length⟩

theorem incrPattern_inside (inc : UInt8) (hsize : 0 < size) (hp : p.length = size) :
    ∃ q, incrPattern p size inc = some q ∧ q.length = size := by
  obtain ⟨q, hq, hqf⟩ := incrPattern_holds inc hsize (holds_getD hp)
  exact ⟨q, hq, hqf.length⟩

/-! ## After any number of updates -/

/-- `init_pattern`, and `incr_pattern` by `inc` that many times. -/
def patternTimes (p : List UInt8) (size : ℕ) (inc : UInt8) : ℕ → Option (List UInt8)
  | 0 => initPattern p size
  | k + 1 => (patternTimes p size inc k).bind fun q => incrPattern q size inc

/-- Byte `i` after `k` updates. -/
def patternByte (size : ℕ) (inc : UInt8) (k i : ℕ) : UInt8 :=
  if size - 1 = i then .ofNat (0xAA + k * inc.toNat)
  else if i % 8 = 0 then .ofNat (i / 8 + 1 + k * inc.toNat)
  else if k = 0 then 0x55
  else if (1 + (k - 1) * inc.toNat) % 2 = 1 then 0x55 else 0xAA

theorem ofNat_updates (n k : ℕ) (inc : UInt8) :
    UInt8.ofNat (n + k * inc.toNat) + inc = .ofNat (n + (k + 1) * inc.toNat) := by
  rw [Nat.succ_mul, ← Nat.add_assoc, UInt8.ofNat_add (n + k * inc.toNat), UInt8.ofNat_toNat]

theorem fillByte_ofNat (n : ℕ) : fillByte (.ofNat n) = if n % 2 = 1 then 0x55 else 0xAA := by
  have hiff : UInt8.ofNat n % 2 = 0 ↔ ¬ n % 2 = 1 := by
    rw [← UInt8.toNat_inj, UInt8.toNat_mod, UInt8.toNat_ofNat']
    simp
  unfold fillByte
  simp only [hiff]
  split_ifs <;> rfl

theorem patternByte_succ {inc : UInt8} {k i : ℕ} (hi : i < size) :
    (if size - 1 = i ∨ i % 8 = 0 then patternByte size inc k i + inc
      else fillByte (patternByte size inc k 0)) = patternByte size inc (k + 1) i := by
  unfold patternByte
  by_cases hlast : size - 1 = i
  · rw [if_pos (.inl hlast), if_pos hlast, if_pos hlast, ofNat_updates]
  · by_cases h8 : i % 8 = 0
    · rw [if_pos (.inr h8), if_neg hlast, if_neg hlast, if_pos h8, if_pos h8, ofNat_updates]
    · have hzero : ¬ size - 1 = 0 := by omega
      rw [if_neg (not_or.mpr ⟨hlast, h8⟩), if_neg hzero, if_pos rfl, fillByte_ofNat, if_neg hlast,
        if_neg h8, if_neg (Nat.succ_ne_zero k), Nat.zero_div, Nat.add_sub_cancel]

theorem patternTimes_holds (inc : UInt8) (k : ℕ) (hsize : 0 < size) (hp : p.length = size) :
    ∃ q, patternTimes p size inc k = some q ∧ Holds size (patternByte size inc k) q := by
  induction k with
  | zero =>
    obtain ⟨q, hq, hqf⟩ := initPattern_holds hsize hp
    refine ⟨q, hq, hqf.congr fun i _ => ?_⟩
    simp [initByte, patternByte]
  | succ k ih =>
    obtain ⟨q, hq, hqf⟩ := ih
    obtain ⟨r, hr, hrf⟩ := incrPattern_holds inc hsize hqf
    refine ⟨r, ?_, hrf.congr fun i hi => patternByte_succ hi⟩
    rw [patternTimes, hq, Option.bind_some, hr]

/-- **Closed form.** In an array of `n` bytes, every access of `init_pattern` and of `k` calls of
`incr_pattern` is inside it, and each byte is given by its position, `k` and the increment. -/
theorem pattern_closed_form {n : ℕ} (p : List UInt8) (inc : UInt8) (k : ℕ) (hn : 1 ≤ n)
    (hp : p.length = n) :
    ∃ q, patternTimes p n inc k = some q ∧ q.length = n ∧
      q[n - 1]? = some (.ofNat (0xAA + k * inc.toNat)) ∧
      (∀ i < n - 1, i % 8 = 0 → q[i]? = some (.ofNat (i / 8 + 1 + k * inc.toNat))) ∧
      ∀ i < n - 1, i % 8 ≠ 0 → q[i]? = some
        (if k = 0 then 0x55 else if (1 + (k - 1) * inc.toNat) % 2 = 1 then 0x55 else 0xAA) := by
  obtain ⟨q, hq, hqf⟩ := patternTimes_holds inc k hn hp
  refine ⟨q, hq, hqf.length, ?_, fun i hi h8 => ?_, fun i hi h8 => ?_⟩
  · rw [hqf.byte _ (by omega), patternByte, if_pos rfl]
  · rw [hqf.byte i (by omega), patternByte, if_neg (by omega), if_pos h8]
  · rw [hqf.byte i (by omega), patternByte, if_neg (by omega), if_neg h8]

/-- Nine bytes, where the last one is also the head of a group, after two updates by 3. -/
theorem pattern_closed_form_nine : ∃ q, patternTimes (List.replicate 9 0) 9 3 2 = some q ∧
    q[8]? = some 0xB0 ∧ q[0]? = some 7 ∧ q[1]? = some 0xAA := by
  obtain ⟨q, hq, -, hlast, hheads, hfill⟩ :=
    pattern_closed_form (List.replicate 9 0) 3 2 (by decide) List.length_replicate
  exact ⟨q, hq, hlast, hheads 0 (by decide) rfl, hfill 1 (by decide) (by decide)⟩

end NrfProjects.Littlefs
