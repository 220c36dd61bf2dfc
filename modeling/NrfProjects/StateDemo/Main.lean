import Mathlib.Data.Int.Notation
import Mathlib.Data.Nat.Notation
import NrfProjects.Interaction.Safety
import NrfProjects.Interaction.Replay

/-! # The event-driven state machine (`demos2/state_demo`)

`main` waits for a button press and lets each wake-up move the machine between `S0` and `S1`. The
button interrupt is the device's own move: once the callback is added it may post at any moment.
`kEventWait` is two calls, the reset and the wait itself, so that a press can fall between them.

Presses are numbered in the order they are posted. The record fields of `State` say which of them
the event object still holds and which ones each wake-up saw; the code reads none of them. -/

namespace NrfProjects.StateDemo
set_option autoImplicit false
open Interaction

def EVENT_BTN_PRESS : BitVec 32 := 1

inductive DemoState
  | S0
  | S1
  deriving DecidableEq, Repr

inductive Call : Type → Type
  | gpioIsReadyDt : Call Bool
  | gpioPinConfigureDt : Call ℤ
  | gpioPinInterruptConfigureDt : Call ℤ
  | gpioAddCallback : Call Unit
  | kEventInit : Call Unit
  | kEventReset : Call Unit
  | kEventBlock (events : BitVec 32) : Call (BitVec 32)
  | setEvents (events : BitVec 32) : Call Unit
  | events : Call (BitVec 32)
  | smfSetFirst (st : DemoState) : Call Unit
  | smfCurrent : Call DemoState
  | smfSetCurrent (st : DemoState) : Call Unit
  | smfTerminateVal : Call ℤ
  | printk (text : String) : Call Unit

/-! ## The states -/

def s0Entry : Prog Call Unit := Call.printk "STATE0\n"

def s1Entry : Prog Call Unit := Call.printk "STATE1\n"

def entry : DemoState → Prog Call Unit
  | .S0 => s0Entry
  | .S1 => s1Entry

/-- `smf_set_state` makes the target current and runs its entry; no state here has an exit. -/
def smfSetState (st : DemoState) : Prog Call Unit := do
  Call.smfSetCurrent st
  entry st

/-- Leave the state for `target` if the last wake-up saw a button press. -/
def runTo (target : DemoState) : Prog Call Unit := do
  if (← Call.events) &&& EVENT_BTN_PRESS ≠ 0 then
    smfSetState target

def s0Run : Prog Call Unit := runTo .S1

def s1Run : Prog Call Unit := runTo .S0

structure SmfState where
  entry : Prog Call Unit
  run : Prog Call Unit

def demoStates : DemoState → SmfState
  | .S0 => ⟨s0Entry, s0Run⟩
  | .S1 => ⟨s1Entry, s1Run⟩

/-! ## The main program -/

def smfSetInitial (st : DemoState) : Prog Call Unit := do
  Call.smfSetFirst st
  (demoStates st).entry

def smfRunState : Prog Call ℤ := do
  let st ← Call.smfCurrent
  (demoStates st).run
  Call.smfTerminateVal

def kEventWait (events : BitVec 32) (reset : Bool) : Prog Call (BitVec 32) := do
  if reset then
    Call.kEventReset
  Call.kEventBlock events

def iteration : Prog Call (Unit ⊕ ℤ) := do
  let events ← kEventWait EVENT_BTN_PRESS true
  Call.setEvents events
  let ret ← smfRunState
  if ret ≠ 0 then
    return .inr 0
  return .inl ()

def mainLoop : Prog Call ℤ := Prog.repeatM () fun _ => iteration

def main : Prog Call ℤ := do
  unless ← Call.gpioIsReadyDt do
    return 0
  if (← Call.gpioPinConfigureDt) ≠ 0 then
    return 0
  if (← Call.gpioPinInterruptConfigureDt) ≠ 0 then
    return 0
  Call.gpioAddCallback
  -- presses can be posted from here on
  Call.kEventInit
  smfSetInitial .S0
  mainLoop

/-! ## The kernel beside it -/

/-- A wake-up saw the presses numbered `first`, …, `last - 1`. -/
structure Wake where
  first : ℕ
  last : ℕ
  deriving DecidableEq, Repr

def Wake.Saw (w : Wake) (press : ℕ) : Prop := w.first ≤ press ∧ press < w.last

structure State where
  callbackAdded : Bool
  smfEvent : BitVec 32
  /-- `s_obj.events` -/
  events : BitVec 32
  current : Option DemoState
  terminateVal : ℤ
  /-- Presses posted. -/
  presses : ℕ
  /-- Presses posted before the event object was last cleared. -/
  clearedAt : ℕ
  /-- Presses posted before `k_event_init`, once that has run. -/
  initAt : Option ℕ
  /-- `main` is inside `k_event_wait`, past its reset. -/
  waiting : Bool
  /-- Presses posted while `main` was not. -/
  outside : ℕ
  wakes : List Wake
  /-- Calls of `smf_set_state`. -/
  transitions : ℕ
  /-- Completed calls of `smf_run_state`, the last step of each round of the loop. -/
  iterations : ℕ
  deriving DecidableEq, Repr

def boot : State := ⟨false, 0, 0, none, 0, 0, 0, none, false, 0, [], 0, 0⟩

def kEventPost (events : BitVec 32) (s : State) : State :=
  { s with
    smfEvent := s.smfEvent ||| events
    presses := s.presses + 1
    outside := if s.waiting then s.outside else s.outside + 1 }

def buttonPressed (s : State) : State := kEventPost EVENT_BTN_PRESS s

def device : Device Call State where
  answer
    | .gpioIsReadyDt, s, _, t => t = s
    | .gpioPinConfigureDt, s, _, t => t = s
    | .gpioPinInterruptConfigureDt, s, _, t => t = s
    | .gpioAddCallback, s, _, t => t = { s with callbackAdded := true }
    | .kEventInit, s, _, t =>
      t = { s with smfEvent := 0, clearedAt := s.presses, initAt := some s.presses }
    | .kEventReset, s, _, t => t = { s with smfEvent := 0, clearedAt := s.presses, waiting := true }
    | .kEventBlock events, s, r, t =>
      s.smfEvent &&& events ≠ 0 ∧ r = s.smfEvent &&& events ∧
        t = { s with waiting := false, wakes := s.wakes ++ [⟨s.clearedAt, s.presses⟩] }
    | .setEvents events, s, _, t => t = { s with events := events }
    | .events, s, r, t => r = s.events ∧ t = s
    | .smfSetFirst st, s, _, t => t = { s with current := some st, terminateVal := 0 }
    | .smfCurrent, s, r, t => s.current = some r ∧ t = s
    | .smfSetCurrent st, s, _, t =>
      t = { s with current := some st, transitions := s.transitions + 1 }
    | .smfTerminateVal, s, r, t =>
      r = s.terminateVal ∧ t = { s with iterations := s.iterations + 1 }
    | .printk _, s, _, t => t = s
  move s t := s.callbackAdded = true ∧ t = buttonPressed s

/-! ## Replays -/

/-- The set-up succeeds, and every other call does the one thing it can do. -/
def reply {ρ : Type} : Call ρ → State → Option (ρ × State)
  | .gpioIsReadyDt, s => some (true, s)
  | .gpioPinConfigureDt, s => some (0, s)
  | .gpioPinInterruptConfigureDt, s => some (0, s)
  | .gpioAddCallback, s => some ((), { s with callbackAdded := true })
  | .kEventInit, s =>
    some ((), { s with smfEvent := 0, clearedAt := s.presses, initAt := some s.presses })
  | .kEventReset, s => some ((), { s with smfEvent := 0, clearedAt := s.presses, waiting := true })
  | .kEventBlock events, s =>
    if s.smfEvent &&& events ≠ 0 then
      some (s.smfEvent &&& events,
        { s with waiting := false, wakes := s.wakes ++ [⟨s.clearedAt, s.presses⟩] })
    else none
  | .setEvents events, s => some ((), { s with events := events })
  | .events, s => some (s.events, s)
  | .smfSetFirst st, s => some ((), { s with current := some st, terminateVal := 0 })
  | .smfCurrent, s =>
    match s.current with
    | some st => some (st, s)
    | none => none
  | .smfSetCurrent st, s =>
    some ((), { s with current := some st, transitions := s.transitions + 1 })
  | .smfTerminateVal, s => some (s.terminateVal, { s with iterations := s.iterations + 1 })
  | .printk _, s => some ((), s)

/-- A replay with a press just before the calls that `press` picks. -/
def script (press : {ρ : Type} → Call ρ → State → Bool) {ρ : Type} (c : Call ρ) (s : State) :
    Option (ρ × State) :=
  reply c (if s.callbackAdded && press c s then buttonPressed s else s)

theorem answer_of_reply {ρ : Type} {c : Call ρ} {s t : State} {r : ρ}
    (h : reply c s = some (r, t)) : device.answer c s r t := by
  cases c <;> simp only [reply, device] at h ⊢ <;> grind

theorem script_follows (press : {ρ : Type} → Call ρ → State → Bool) :
    Script.Follows (script press) device := by
  intro ρ c s r t h
  refine ⟨_, ?_, answer_of_reply h⟩
  split
  · next hp => exact .single ⟨(Bool.and_eq_true_iff.mp hp).1, rfl⟩
  · exact .refl

end NrfProjects.StateDemo
