import Mathlib.Data.Int.Notation
import Mathlib.Data.Nat.Notation
import NrfProjects.Interaction.Replay

/-! # The interrupts demo (`demos2/interrupts`)

A button and a timer interrupt count themselves, and `main` prints the counts again and again. The
two handlers are the device's own moves, each one indivisible and at any moment; `main` reads the
counters one at a time with interrupts enabled. -/

namespace NrfProjects.Interrupts
set_option autoImplicit false
open Interaction

def SLEEP_TIME_MS : ℤ := 5000

def TIMER_INTERVAL_MS : ℤ := 3000

def BUTTON_PIN : ℤ := 11

inductive Message
  | banner
  | settingUpButton
  | gpioNotReady
  | pinError (ret : ℤ)
  | interruptError (ret : ℤ)
  | callbackError (ret : ℤ)
  | buttonReady (pin : ℤ)
  | settingUpTimer
  | timerReady (ms : ℤ)
  | instructions (pin intervalS statsS : ℤ)
  | statistics
  | total (n : UInt32)
  | noneFired
  | button (n : UInt32)
  | timer (n : UInt32)
  | activeTypes (n : UInt32)
  | complete
  | aboutToSleep (ms : ℤ)
  | buttonFired (n : UInt32)
  | timerFired (n : UInt32)
  deriving DecidableEq

/-- The last three calls are the reads of the counters. -/
inductive Call : Type → Type
  | deviceIsReady : Call Bool
  | gpioPinConfigure (pin : ℤ) : Call ℤ
  | gpioPinInterruptConfigure (pin : ℤ) : Call ℤ
  | gpioInitCallback (pin : ℤ) : Call Unit
  | gpioAddCallback : Call ℤ
  | kTimerInit : Call Unit
  | kTimerStart (duration period : ℤ) : Call Unit
  | kMsleep (ms : ℤ) : Call Unit
  | printk (m : Message) : Call Unit
  | buttonInterruptCount : Call UInt32
  | timerInterruptCount : Call UInt32
  | totalInterruptCount : Call UInt32

/-! ## The program -/

def setupTimer : Prog Call Unit := do
  Call.printk .settingUpTimer
  Call.kTimerInit
  Call.kTimerStart TIMER_INTERVAL_MS TIMER_INTERVAL_MS
  Call.printk (.timerReady TIMER_INTERVAL_MS)

def setupButton : Prog Call Unit := do
  Call.printk .settingUpButton
  unless ← Call.deviceIsReady do
    Call.printk .gpioNotReady
    return
  let ret ← Call.gpioPinConfigure BUTTON_PIN
  if ret < 0 then
    Call.printk (.pinError ret)
    return
  let ret ← Call.gpioPinInterruptConfigure BUTTON_PIN
  if ret < 0 then
    Call.printk (.interruptError ret)
    return
  Call.gpioInitCallback BUTTON_PIN
  let ret ← Call.gpioAddCallback
  if ret < 0 then
    Call.printk (.callbackError ret)
    return
  Call.printk (.buttonReady BUTTON_PIN)

/-- The counts, or the line that there are none. -/
def printCounts : Prog Call Unit := do
  if (← Call.totalInterruptCount) = 0 then
    Call.printk .noneFired
  else
    Call.printk (.button (← Call.buttonInterruptCount))
    Call.printk (.timer (← Call.timerInterruptCount))

def printInterruptStats : Prog Call Unit := do
  Call.printk .statistics
  Call.printk (.total (← Call.totalInterruptCount))
  printCounts
  let activeTypes : UInt32 := if (← Call.buttonInterruptCount) > 0 then 0 + 1 else 0
  let activeTypes := if (← Call.timerInterruptCount) > 0 then activeTypes + 1 else activeTypes
  Call.printk (.activeTypes activeTypes)
  Call.printk .complete
  Call.printk (.aboutToSleep SLEEP_TIME_MS)

def cycle : Prog Call (Unit ⊕ ℤ) := do
  printInterruptStats
  Call.kMsleep SLEEP_TIME_MS
  return .inl ()

def main : Prog Call ℤ := do
  Call.printk .banner
  setupButton
  setupTimer
  Call.printk (.instructions BUTTON_PIN (TIMER_INTERVAL_MS / 1000) (SLEEP_TIME_MS / 1000))
  Prog.repeatM () fun _ => cycle

/-! ## The interrupts beside it -/

/-- How many interrupts of each kind there have been at one moment. -/
structure Mark where
  presses : ℕ
  expiries : ℕ

structure System where
  button : UInt32
  timer : UInt32
  total : UInt32
  console : List Message
  /-- The interrupts since power-up. -/
  fired : Mark
  /-- What `main` has printed since it last printed the title of the statistics. -/
  report : List Message
  /-- The interrupts there had been at each of its counter reads since then. -/
  marks : List Mark

def boot : System := ⟨0, 0, 0, [], ⟨0, 0⟩, [], []⟩

def timerExpiryFunction (s : System) : System :=
  { s with
    timer := s.timer + 1
    total := s.total + 1
    console := s.console ++ [.timerFired (s.timer + 1)]
    fired := { s.fired with expiries := s.fired.expiries + 1 } }

def buttonPressed (s : System) : System :=
  { s with
    button := s.button + 1
    total := s.total + 1
    console := s.console ++ [.buttonFired (s.button + 1)]
    fired := { s.fired with presses := s.fired.presses + 1 } }

def System.print (s : System) (m : Message) : System :=
  if m = .statistics then { s with console := s.console ++ [m], report := [m], marks := [] }
  else { s with console := s.console ++ [m], report := s.report ++ [m] }

def System.mark (s : System) : System := { s with marks := s.marks ++ [s.fired] }

def device : Device Call System where
  answer
    | .deviceIsReady, s, _, t => t = s
    | .gpioPinConfigure _, s, _, t => t = s
    | .gpioPinInterruptConfigure _, s, _, t => t = s
    | .gpioInitCallback _, s, _, t => t = s
    | .gpioAddCallback, s, _, t => t = s
    | .kTimerInit, s, _, t => t = s
    | .kTimerStart _ _, s, _, t => t = s
    | .kMsleep _, s, _, t => t = s
    | .printk m, s, _, t => t = s.print m
    | .buttonInterruptCount, s, r, t => r = s.button ∧ t = s.mark
    | .timerInterruptCount, s, r, t => r = s.timer ∧ t = s.mark
    | .totalInterruptCount, s, r, t => r = s.total ∧ t = s.mark
  move s t := t = buttonPressed s ∨ t = timerExpiryFunction s

/-- The set-up succeeds; `press` says before which calls the button is pressed. -/
def script (press : {ρ : Type} → Call ρ → System → Bool) {ρ : Type} (c : Call ρ) (s : System) :
    Option (ρ × System) :=
  let s := if press c s then buttonPressed s else s
  match c with
  | .deviceIsReady => some (true, s)
  | .gpioPinConfigure _ => some (0, s)
  | .gpioPinInterruptConfigure _ => some (0, s)
  | .gpioInitCallback _ => some ((), s)
  | .gpioAddCallback => some (0, s)
  | .kTimerInit => some ((), s)
  | .kTimerStart _ _ => some ((), s)
  | .kMsleep _ => none
  | .printk m => some ((), s.print m)
  | .buttonInterruptCount => some (s.button, s.mark)
  | .timerInterruptCount => some (s.timer, s.mark)
  | .totalInterruptCount => some (s.total, s.mark)

theorem script_follows (press : {ρ : Type} → Call ρ → System → Bool) :
    Script.Follows (script press) device := by
  intro ρ c s r t h
  refine ⟨if press c s then buttonPressed s else s, ?_, ?_⟩
  · split
    · exact .single (.inl rfl)
    · exact .refl
  · cases c <;> simp_all [script, device]

end NrfProjects.Interrupts
