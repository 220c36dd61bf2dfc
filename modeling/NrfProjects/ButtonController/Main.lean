import Mathlib.Data.Int.Notation
import Mathlib.Data.Nat.Notation
import NrfProjects.Interaction.Execution
import NrfProjects.Interaction.Replay

/-! # The button demo (`demos1/button_controller`)

`main` reads the button ten times a second and shows it on the LED. A call has its effect at one
moment. From one such moment to the next, time passes, in microseconds, and the button changes at any
point of it. A sleep is two calls, its start and its end. -/

namespace NrfProjects.ButtonController
set_option autoImplicit false
open Interaction

def SLEEP_TIME_MS : ℕ := 100

/-- The microseconds of a millisecond. -/
def MS : ℕ := 1000

inductive Pin
  | button1
  | led1

inductive Flags
  | outputActive
  | input

inductive Call : Type → Type
  | deviceIsReady (pin : Pin) : Call Bool
  | gpioPinConfigureDt (pin : Pin) (flags : Flags) : Call ℤ
  | gpioPinGetDt (pin : Pin) : Call ℤ
  | gpioPinSetDt (pin : Pin) (val : Bool) : Call ℤ
  | printk (text : String) : Call Unit
  | sleepFor (ms : ℕ) : Call Unit
  | wake : Call Unit

/-! ## The program -/

def kMsleep (ms : ℕ) : Prog Call Unit := do
  Call.sleepFor ms
  Call.wake

def sampling : Prog Call ℤ := Prog.repeatM () fun _ => do
  -- an error code becomes `true`
  let val := decide ((← Call.gpioPinGetDt .button1) ≠ 0)
  if val then
    Call.printk "Button pressed\n"
  let _ ← Call.gpioPinSetDt .led1 val
  kMsleep SLEEP_TIME_MS
  return .inl ()

def main : Prog Call ℤ := do
  unless ← Call.deviceIsReady .led1 do
    return -1
  unless ← Call.deviceIsReady .button1 do
    return -1
  let ret ← Call.gpioPinConfigureDt .led1 .outputActive
  if ret < 0 then
    return -1
  let ret ← Call.gpioPinConfigureDt .button1 .input
  if ret < 0 then
    return -1
  sampling

/-! ## The board beside it -/

/-- How much longer than asked a sleep may take, how long it may otherwise take from the moment of one
call to the moment of the next, and which calls may fail. -/
structure Board where
  late : ℕ
  busy : ℕ
  readFails : Bool
  setFails : Bool

structure System where
  now : ℕ
  pressed : Bool
  /-- When the button last changed. -/
  changedAt : ℕ
  lit : Bool
  /-- The moment of the last call. -/
  calledAt : ℕ
  /-- The milliseconds that `main` has asked to sleep. -/
  asleep : Option ℕ

def System.level (s : System) : Pin → ℤ
  | .button1 => if s.pressed then 1 else 0
  | .led1 => if s.lit then 1 else 0

def System.configure (s : System) : Pin → Flags → System
  | .led1, .outputActive => { s with lit := true }
  | _, _ => s

def System.set (s : System) : Pin → Bool → System
  | .led1, val => { s with lit := val }
  | .button1, _ => s

def System.toggle (s : System) : System := { s with pressed := !s.pressed, changedAt := s.now }

/-- The moment of a call. -/
def System.called (s : System) : System := { s with calledAt := s.now }

def System.pass (s : System) (us : ℕ) : System := { s with now := s.now + us }

/-- How long it may take to the moment of the next call. -/
def longest (board : Board) (s : System) : ℕ :=
  match s.asleep with
  | some ms => ms * MS + board.late
  | none => board.busy

inductive Move (board : Board) : System → System → Prop
  | toggle (s : System) : Move board s s.toggle
  | tick {s : System} (h : s.now < s.calledAt + longest board s) : Move board s (s.pass 1)

/-- What a call does at its moment. -/
def Effect (board : Board) : {ρ : Type} → Call ρ → System → ρ → System → Prop
  | _, .gpioPinConfigureDt pin flags, s, r, t => r = 0 ∧ t = s.configure pin flags ∨ r < 0 ∧ t = s
  | _, .gpioPinGetDt pin, s, r, t => t = s ∧ (r = s.level pin ∨ board.readFails = true ∧ r < 0)
  | _, .gpioPinSetDt pin val, s, r, t =>
    r = 0 ∧ t = s.set pin val ∨ board.setFails = true ∧ r < 0 ∧ t = s
  | _, .sleepFor ms, s, _, t => t = { s with asleep := some ms }
  | _, .wake, s, _, t =>
    (∃ ms, s.asleep = some ms ∧ s.calledAt + ms * MS ≤ s.now) ∧ t = { s with asleep := none }
  | _, _, s, _, t => t = s

def device (board : Board) : Device Call System where
  answer c s r t := ∃ u, Effect board c s r u ∧ t = u.called
  move := Move board

def powerOn : System := ⟨0, false, 0, false, 0, none⟩

end NrfProjects.ButtonController
