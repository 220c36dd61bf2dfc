import Mathlib.Data.Int.Notation
import Mathlib.Data.Nat.Notation
import NrfProjects.Interaction.Execution
import NrfProjects.Interaction.Replay

/-! # The deep sleep demo (`demos2/deep_sleep_demo`)

`main` goes through three ways to sleep, blinking the LED in each, and then switches the system off,
with a pin that wakes it up again. Every call takes time, in microseconds, and has its effect at some
moment of it. -/

namespace NrfProjects.DeepSleep
set_option autoImplicit false
open Interaction

def SLEEP_TIME_MS : ℕ := 5000

/-- The microseconds of a millisecond. -/
def MS : ℕ := 1000

inductive Pin
  | led
  | button

inductive Flags
  | outputActive
  | input

inductive Sense
  | low
  deriving DecidableEq

inductive Message
  | newline
  | notReady
  | title
  | watchLed
  | started
  | systemOn (ms : ℕ)
  | wokeUp
  | cpuIdle
  | idleCycle (i : ℕ)
  | idleWokeUp (i : ℕ)
  | idleCompleted
  | threadYield
  | yieldWokeUp
  | systemOff
  | systemOffFailed

inductive Call : Type → Type
  | printk (m : Message) : Call Unit
  | deviceIsReady : Call Bool
  | gpioPinConfigure (pin : Pin) (flags : Flags) : Call ℤ
  | gpioPinSet (pin : Pin) (value : Bool) : Call ℤ
  | kSleep (ms : ℕ) : Call Unit
  | kYield : Call Unit
  | kTimerStart (duration : ℕ) : Call Unit
  | kTimerStop : Call Unit
  | kCpuIdle : Call Unit
  | nrfGpioCfgSenseSet (pinNumber : ℕ) (sense : Sense) : Call Unit
  | nrfPowerSystemOff : Call Unit

/-! ## The program -/

def kMsleep (ms : ℕ) : Prog Call Unit := Call.kSleep ms

/-- Its result is not looked at. -/
def setLed (value : Bool) : Prog Call Unit := do
  let _ ← Call.gpioPinSet .led value

def systemOnSleep : Prog Call Unit := do
  Call.printk (.systemOn SLEEP_TIME_MS)
  setLed false
  Call.kSleep SLEEP_TIME_MS
  setLed true
  Call.printk .wokeUp
  Call.kSleep 2000
  setLed false

def systemOffSleep : Prog Call Unit := do
  Call.printk .systemOff
  Call.nrfGpioCfgSenseSet 11 .low
  kMsleep 10
  Call.nrfPowerSystemOff
  Call.printk .systemOffFailed

def cpuIdleCycle (i : ℕ) : Prog Call Unit := do
  Call.printk (.idleCycle (i + 1))
  Call.kTimerStart 1000
  Call.kCpuIdle
  Call.kTimerStop
  setLed true
  kMsleep 200
  setLed false
  Call.printk (.idleWokeUp (i + 1))

def systemOnSleepWithCpuIdle : Prog Call Unit := do
  Call.printk .cpuIdle
  setLed false
  Prog.repeatM (0 : ℕ) fun i => do
    if i < 5 then
      cpuIdleCycle i
      return .inl (i + 1)
    return .inr ()
  Call.printk .idleCompleted

def systemOnSleepWithYield : Prog Call Unit := do
  Call.printk .threadYield
  setLed false
  Call.kYield
  Call.kSleep SLEEP_TIME_MS
  setLed true
  Call.printk .yieldWokeUp
  Call.kSleep 2000
  setLed false

/-- The two pins are set up, and the LED blinks once. -/
def startUp : Prog Call Unit := do
  let _ ← Call.gpioPinConfigure .led .outputActive
  let _ ← Call.gpioPinConfigure .button .input
  setLed true
  Call.kSleep 500
  setLed false
  Call.printk .title
  Call.printk .watchLed
  Call.printk .started

def main : Prog Call ℤ := do
  Call.printk .newline
  unless ← Call.deviceIsReady do
    Call.printk .notReady
    return 1
  startUp
  systemOnSleep
  Call.kSleep 1000
  systemOnSleepWithCpuIdle
  Call.kSleep 1000
  systemOnSleepWithYield
  Call.kSleep 1000
  systemOffSleep
  return 0

/-! ## The chip beside it -/

/-- How much longer than asked a sleep or the timer may take, how long any other call may take, and
which calls on the LED's pin may fail. -/
structure Chip where
  late : ℕ
  busy : ℕ
  configureFails : Bool
  setFails : Bool

/-- The LED's pin drives it only once it is configured as an output. -/
inductive Led
  | unset
  | dark
  | lit
  deriving DecidableEq

def Led.set : Led → Bool → Led
  | .unset, _ => .unset
  | _, true => .lit
  | _, false => .dark

structure System where
  now : ℕ
  led : Led
  /-- When the wake timer expires. -/
  timer : Option ℕ
  /-- The pin that is sensed, and since when. -/
  sense : Option (ℕ × Sense × ℕ)
  /-- Two records that the code does not read: how often the LED has been switched on, and for how
  long it has been lit. -/
  blinks : ℕ
  litFor : ℕ

def System.turn (s : System) (led : Led) : System :=
  { s with led := led, blinks := s.blinks + if led = .lit ∧ s.led ≠ .lit then 1 else 0 }

def System.pass (s : System) (us : ℕ) : System :=
  { s with now := s.now + us, litFor := s.litFor + if s.led = .lit then us else 0 }

def System.configure (s : System) : Pin → Flags → System
  | .led, .outputActive => s.turn .lit
  | _, _ => s

def System.set (s : System) : Pin → Bool → System
  | .led, value => s.turn (s.led.set value)
  | .button, _ => s

/-- How long a call may take before its effect and after it. Idling ends with an interrupt, with that
of the timer at the latest, if the timer is still to expire. -/
def Lasts (chip : Chip) : {ρ : Type} → Call ρ → System → ℕ → ℕ → Prop
  | _, .kSleep ms, _, before, after =>
    ms * MS ≤ before + after ∧ before + after ≤ ms * MS + chip.late
  | _, .kCpuIdle, s, before, after =>
    ∀ e ∈ s.timer, s.now < e → s.now + (before + after) ≤ e + chip.late
  | _, _, _, before, after => before + after ≤ chip.busy

/-- What a call does. Switching the system off does not return. -/
def Effect (chip : Chip) : {ρ : Type} → Call ρ → System → ρ → System → Prop
  | _, .gpioPinConfigure pin flags, s, r, t =>
    r = 0 ∧ t = s.configure pin flags ∨
      (pin = .button ∨ chip.configureFails = true) ∧ r < 0 ∧ t = s
  | _, .gpioPinSet pin value, s, r, t =>
    r = 0 ∧ t = s.set pin value ∨ chip.setFails = true ∧ r < 0 ∧ t = s
  | _, .kTimerStart duration, s, _, t => t = { s with timer := some (s.now + duration * MS) }
  | _, .kTimerStop, s, _, t => t = { s with timer := none }
  | _, .nrfGpioCfgSenseSet pinNumber sense, s, _, t =>
    t = { s with sense := some (pinNumber, sense, s.now) }
  | _, .nrfPowerSystemOff, _, _, _ => False
  | _, _, s, _, t => t = s

def device (chip : Chip) : Device Call System where
  answer c s r t :=
    ∃ before after u, Lasts chip c s before after ∧ Effect chip c (s.pass before) r u ∧
      t = u.pass after
  move _ _ := False

instance (chip : Chip) : (device chip).Quiet := ⟨fun _ _ h => h⟩

def powerOn : System := ⟨0, .unset, none, none, 0, 0⟩

end NrfProjects.DeepSleep
