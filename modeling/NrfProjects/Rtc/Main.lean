import Mathlib.Data.Int.Notation
import Mathlib.Tactic.Ring
import NrfProjects.Interaction.Execution

/-! # The clock demo (`demos2/rtc_demo`)

`main` sets a date and time once and prints it every second, with the time since then carried over
by hand. The clock device is written and never read. An `int` that overflows is a call that is never
answered. -/

namespace NrfProjects.Rtc
set_option autoImplicit false
open Interaction

def INT_MIN : ℤ := -2 ^ 31

def INT_MAX : ℤ := 2 ^ 31 - 1

def INT64_MIN : ℤ := -2 ^ 63

def INT64_MAX : ℤ := 2 ^ 63 - 1

structure RtcTime where
  tmSec : ℤ
  tmMin : ℤ
  tmHour : ℤ
  tmMday : ℤ
  tmMon : ℤ
  tmYear : ℤ

inductive Message
  | notReady
  | cannotWrite (ret : ℤ)
  | dateTime (year mon mday hour min sec : ℤ)

inductive Call : Type → Type
  | deviceIsReady : Call Bool
  | kUptimeGet : Call ℤ
  | rtcSetTime (tm : RtcTime) : Call ℤ
  | kSleep (ms : ℤ) : Call Unit
  | printk (m : Message) : Call Unit
  | overflow : Call Empty

/-- The value of a signed expression, where it lies between the limits of its type. -/
def signed (min max n : ℤ) : Prog Call ℤ := do
  if min ≤ n ∧ n ≤ max then
    return n
  let e ← Call.overflow
  nomatch e

def int : ℤ → Prog Call ℤ := signed INT_MIN INT_MAX

def int64 : ℤ → Prog Call ℤ := signed INT64_MIN INT64_MAX

/-- Conversion to `int`. -/
def toInt (n : ℤ) : ℤ := n.bmod (2 ^ 32)

/-- The static variables. -/
structure Statics where
  initialTime : RtcTime
  bootTimeMs : ℤ

def startTime : RtcTime where
  tmYear := 2025 - 1900
  tmMon := 11 - 1
  tmMday := 30
  tmHour := 18
  tmMin := 30
  tmSec := 0

def setDateTime : Prog Call (ℤ × Statics) := do
  let bootTimeMs ← Call.kUptimeGet
  let g : Statics := ⟨startTime, bootTimeMs⟩
  let ret ← Call.rtcSetTime g.initialTime
  if ret < 0 then
    Call.printk (.cannotWrite ret)
    return (ret, g)
  return (ret, g)

/-- One of the three loops: `while (low >= limit) { low -= limit; high++; }`. -/
def carry (limit low high : ℤ) : Prog Call (ℤ × ℤ) :=
  Prog.repeatM ((low, high) : ℤ × ℤ) fun x => do
    if x.1 ≥ limit then
      let low ← int (x.1 - limit)
      let high ← int (x.2 + 1)
      return .inl (low, high)
    return .inr x

/-- `getDateTime` up to its output. -/
def carriedTime (g : Statics) : Prog Call RtcTime := do
  let tm := g.initialTime
  let elapsedMs ← int64 ((← Call.kUptimeGet) - g.bootTimeMs)
  let elapsedSeconds := toInt (elapsedMs.tdiv 1000)
  let tmSec ← int (tm.tmSec + elapsedSeconds)
  let (tmSec, tmMin) ← carry 60 tmSec tm.tmMin
  let (tmMin, tmHour) ← carry 60 tmMin tm.tmHour
  let (tmHour, tmMday) ← carry 24 tmHour tm.tmMday
  return { tm with tmSec := tmSec, tmMin := tmMin, tmHour := tmHour, tmMday := tmMday }

def getDateTime (g : Statics) : Prog Call ℤ := do
  let tm ← carriedTime g
  let year ← int (tm.tmYear + 1900)
  let mon ← int (tm.tmMon + 1)
  Call.printk (.dateTime year mon tm.tmMday tm.tmHour tm.tmMin tm.tmSec)
  return 0

def main : Prog Call ℤ := do
  unless ← Call.deviceIsReady do
    Call.printk .notReady
    return 0
  let (_, g) ← setDateTime
  Prog.repeatM () fun _ => do
    if (← getDateTime g) = 0 then
      Call.kSleep 1000
      return .inl ()
    return .inr 0

/-! ## The clock beside it -/

/-- The uptime is the one last read, or that at which `main` has woken up since. -/
structure System where
  uptime : ℤ
  printed : List Message

def device : Device Call System where
  answer
    | .deviceIsReady, s, _, t => t = s
    | .kUptimeGet, s, r, t => r = s.uptime ∧ t = s
    | .rtcSetTime _, s, _, t => t = s
    | .kSleep ms, s, _, t => ∃ later, s.uptime + ms ≤ later ∧ t = { s with uptime := later }
    | .printk m, s, _, t => t = { s with printed := s.printed ++ [m] }
    | .overflow, _, _, _ => False
  move _ _ := False

instance : device.Quiet := ⟨fun _ _ h => h⟩

end NrfProjects.Rtc
