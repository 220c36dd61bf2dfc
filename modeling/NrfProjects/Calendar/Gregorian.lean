import Mathlib.Data.Int.Notation
import Mathlib.Data.Nat.Notation
import Mathlib.Tactic.SplitIfs

/-! # The Gregorian calendar, second by second

`tick` is the second that follows, by the rules for the lengths of months and leap years. Within one
month it is counting in days, hours, minutes and seconds. -/

namespace Calendar
set_option autoImplicit false

structure DateTime where
  year : ℤ
  month : ℤ
  day : ℤ
  hour : ℤ
  minute : ℤ
  second : ℤ
  deriving DecidableEq

def IsLeap (year : ℤ) : Prop := year % 4 = 0 ∧ (year % 100 = 0 → year % 400 = 0)

instance (year : ℤ) : Decidable (IsLeap year) := inferInstanceAs (Decidable (_ ∧ (_ → _)))

def monthLength (year month : ℤ) : ℤ :=
  if month = 2 then if IsLeap year then 29 else 28
  else if month = 4 ∨ month = 6 ∨ month = 9 ∨ month = 11 then 30 else 31

theorem monthLength_pos (year month : ℤ) : 1 ≤ monthLength year month := by
  unfold monthLength
  split_ifs <;> decide

theorem monthLength_le (year month : ℤ) : monthLength year month ≤ 31 := by
  unfold monthLength
  split_ifs <;> decide

namespace DateTime

structure Valid (t : DateTime) : Prop where
  month : 1 ≤ t.month ∧ t.month ≤ 12
  day : 1 ≤ t.day ∧ t.day ≤ monthLength t.year t.month
  hour : 0 ≤ t.hour ∧ t.hour < 24
  minute : 0 ≤ t.minute ∧ t.minute < 60
  second : 0 ≤ t.second ∧ t.second < 60

/-- The start of the day that follows. -/
def nextDay (t : DateTime) : DateTime :=
  if t.day < monthLength t.year t.month then ⟨t.year, t.month, t.day + 1, 0, 0, 0⟩
  else if t.month < 12 then ⟨t.year, t.month + 1, 1, 0, 0, 0⟩
  else ⟨t.year + 1, 1, 1, 0, 0, 0⟩

def tick (t : DateTime) : DateTime :=
  if t.second < 59 then { t with second := t.second + 1 }
  else if t.minute < 59 then { t with minute := t.minute + 1, second := 0 }
  else if t.hour < 23 then { t with hour := t.hour + 1, minute := 0, second := 0 }
  else t.nextDay

example : tick ⟨1900, 2, 28, 23, 59, 59⟩ = ⟨1900, 3, 1, 0, 0, 0⟩ := by decide

example : tick ⟨2000, 2, 28, 23, 59, 59⟩ = ⟨2000, 2, 29, 0, 0, 0⟩ := by decide

/-- The date and time `n` seconds later. -/
def after (t : DateTime) : ℕ → DateTime
  | 0 => t
  | n + 1 => (t.after n).tick

variable {t : DateTime}

theorem Valid.nextDay (h : t.Valid) : t.nextDay.Valid := by
  have hmonth := monthLength_pos t.year (t.month + 1)
  have hyear := monthLength_pos (t.year + 1) 1
  obtain ⟨hm, hd, -, -, -⟩ := h
  unfold DateTime.nextDay
  split_ifs <;> constructor <;> dsimp only <;> omega

theorem Valid.tick (h : t.Valid) : t.tick.Valid := by
  have hnext := h.nextDay
  obtain ⟨hmonth, hday, hhour, hminute, hsecond⟩ := h
  unfold DateTime.tick
  split_ifs
  · exact ⟨hmonth, hday, hhour, hminute, by dsimp only; omega⟩
  · exact ⟨hmonth, hday, hhour, by dsimp only; omega, by dsimp only; omega⟩
  · exact ⟨hmonth, hday, by dsimp only; omega, by dsimp only; omega, by dsimp only; omega⟩
  · exact hnext

theorem Valid.after (h : t.Valid) (n : ℕ) : (t.after n).Valid := by
  induction n with
  | zero => exact h
  | succ n ih => exact ih.tick

/-! ## Within a month -/

def secondOfDay (t : DateTime) : ℤ := t.hour * 3600 + t.minute * 60 + t.second

/-- Second `x` counted from the start of day `day`. -/
def clock (year month day x : ℤ) : DateTime :=
  ⟨year, month, day + x / 86400, x % 86400 / 3600, x % 3600 / 60, x % 60⟩

theorem Valid.eq_clock (h : t.Valid) : t = clock t.year t.month t.day t.secondOfDay := by
  obtain ⟨-, -, hhour, hminute, hsecond⟩ := h
  have hx : t.secondOfDay = t.hour * 3600 + t.minute * 60 + t.second := rfl
  cases t with
  | mk year month day hour minute second =>
    dsimp only at hx hhour hminute hsecond
    simp only [clock, DateTime.mk.injEq, true_and]
    omega

theorem tick_clock {year month day x : ℤ}
    (hday : day + (x + 1) / 86400 ≤ monthLength year month) :
    (clock year month day x).tick = clock year month day (x + 1) := by
  unfold tick nextDay clock
  dsimp only
  split_ifs <;> simp only [DateTime.mk.injEq, true_and] <;> omega

/-- Up to the end of the month, a valid date and time goes on by counting. -/
theorem Valid.after_eq_clock (h : t.Valid) {n : ℕ}
    (hday : t.day + (t.secondOfDay + n) / 86400 ≤ monthLength t.year t.month) :
    t.after n = clock t.year t.month t.day (t.secondOfDay + n) := by
  induction n with
  | zero => exact h.eq_clock.trans (by simp)
  | succ n ih =>
    have hle : (t.secondOfDay + n) / 86400 ≤ (t.secondOfDay + (n + 1 : ℕ)) / 86400 := by omega
    rw [DateTime.after, ih (by omega), tick_clock]
    · rw [Int.natCast_succ, Int.add_assoc]
    · rwa [Int.add_assoc, ← Int.natCast_succ]

/-- And only so long: the count runs past the last day. -/
theorem Valid.after_eq_clock_iff (h : t.Valid) (n : ℕ) :
    t.after n = clock t.year t.month t.day (t.secondOfDay + n) ↔
      t.day + (t.secondOfDay + n) / 86400 ≤ monthLength t.year t.month := by
  constructor
  · intro heq
    have hvalid := h.after n
    rw [heq] at hvalid
    exact hvalid.day.2
  · exact h.after_eq_clock

end DateTime
end Calendar
