import NrfProjects.Interaction.Errno
import NrfProjects.Interaction.Safety
import NrfProjects.Interaction.Replay

/-! # The power-regulator demo (`demos1/pwr_reg`)

`main` turns an LED on and off for ever through Zephyr's regulator interface. The regulator counts
the users of its output; `device` is that count with an underlying driver whose operations may
fail: `outcome n` says how the `n`-th of them ends. Sleeping is left out. -/

namespace NrfProjects.PwrReg
set_option autoImplicit false
open Interaction

/-! ## The program -/

/-- What the demo logs about a call it has made. -/
inductive Report
  | enableFailed (ret : ℤ)
  | ledOn
  | disableFailed (ret : ℤ)
  | ledOff
  deriving DecidableEq, Repr

inductive Call : Type → Type
  | deviceIsReady : Call Bool
  | regulatorEnable : Call ℤ
  | regulatorDisable : Call ℤ
  | log (r : Report) : Call Unit

def cycle : Prog Call (Unit ⊕ ℤ) := do
  let ret ← Call.regulatorEnable
  if ret ≠ 0 then
    Call.log (.enableFailed ret)
  else
    Call.log .ledOn
  -- the regulator is disabled whether or not it was enabled
  let ret ← Call.regulatorDisable
  if ret ≠ 0 then
    Call.log (.disableFailed ret)
  else
    Call.log .ledOff
  return .inl ()

def cycles : Prog Call ℤ := Prog.repeatM () fun _ => cycle

def main : Prog Call ℤ := do
  unless ← Call.deviceIsReady do
    return -1
  cycles

/-! ## The regulator -/

structure State where
  refcount : ℤ
  /-- The output the driver drives. -/
  output : Bool
  /-- Driver operations so far. -/
  operations : ℕ
  deriving DecidableEq, Repr

def boot : State := ⟨0, false, 0⟩

section
variable (outcome : ℕ → Option Errno)

/-- One driver operation that would leave the output at `on` and the count at `refcount`. -/
def drive (on : Bool) (refcount : ℤ) (s : State) : ℤ × State :=
  match outcome s.operations with
  | none => (0, ⟨refcount, on, s.operations + 1⟩)
  | some e => (e.code, { s with operations := s.operations + 1 })

def regulatorEnable (s : State) : ℤ × State :=
  if s.refcount + 1 = 1 then drive outcome true (s.refcount + 1) s
  else (0, { s with refcount := s.refcount + 1 })

def regulatorDisable (s : State) : ℤ × State :=
  if s.refcount - 1 = 0 then drive outcome false (s.refcount - 1) s
  else (0, { s with refcount := s.refcount - 1 })

def device : Device Call State where
  answer
    | .deviceIsReady, s, _, t => t = s
    | .regulatorEnable, s, r, t => (r, t) = regulatorEnable outcome s
    | .regulatorDisable, s, r, t => (r, t) = regulatorDisable outcome s
    | .log _, s, _, t => t = s
  move _ _ := False

instance : (device outcome).Quiet := ⟨fun _ _ h => h⟩

/-- A replay in which the regulator is ready. -/
def script {ρ : Type} : Call ρ → State → Option (ρ × State)
  | .deviceIsReady, s => some (true, s)
  | .regulatorEnable, s => some (regulatorEnable outcome s)
  | .regulatorDisable, s => some (regulatorDisable outcome s)
  | .log _, s => some ((), s)

end

variable {outcome : ℕ → Option Errno}

theorem script_follows : Script.Follows (script outcome) (device outcome) := by
  intro ρ c s r t h
  refine ⟨s, .refl, ?_⟩
  cases c <;> simp_all [script, device]

@[simp] theorem answer_deviceIsReady {s t : State} {r : Bool} :
    (device outcome).answer .deviceIsReady s r t ↔ t = s := Iff.rfl

@[simp] theorem answer_log {s t : State} {m : Report} {r : Unit} :
    (device outcome).answer (.log m) s r t ↔ t = s := Iff.rfl

@[simp] theorem answer_regulatorEnable {s t : State} {r : ℤ} :
    (device outcome).answer .regulatorEnable s r t ↔ (r, t) = regulatorEnable outcome s := Iff.rfl

@[simp] theorem answer_regulatorDisable {s t : State} {r : ℤ} :
    (device outcome).answer .regulatorDisable s r t ↔ (r, t) = regulatorDisable outcome s := Iff.rfl

end NrfProjects.PwrReg
