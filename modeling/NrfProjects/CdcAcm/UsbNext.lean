import Mathlib.Data.Int.Notation
import NrfProjects.Interaction.Parallel

/-! # The echo built with the next USB stack (`CONFIG_USB_DEVICE_STACK_NEXT`)

Here `main` does not ask for DTR again and again: it takes a semaphore, and the message callback,
which runs in the thread of the USB stack, gives it. The callback also switches device support with
the bus voltage where the device can detect that. The rest of the program is as in the other build;
as there, only error messages are kept. -/

namespace NrfProjects.CdcAcm.UsbNext
set_option autoImplicit false
open Interaction

/-- `-ENODEV` -/
def noDevice : ℤ := -19

inductive LogErr
  | notReady
  | initFailed
  | enableFailed
  | disableFailed
  | usbFailed

inductive Msg
  | vbusReady
  | vbusRemoved
  | controlLineState
  | lineCoding
  | other
  deriving DecidableEq

/-- `usbdInitDevice` answers whether it returned a context, and `lineCtrlGetDtr` with the value that
is in `dtr` after it. -/
inductive Call : Type → Type
  | deviceIsReady : Call Bool
  | usbdInitDevice : Call Bool
  | usbdCanDetectVbus : Call Bool
  | usbdEnable : Call ℤ
  | usbdDisable : Call ℤ
  | ringBufInit : Call Unit
  | kSemGive : Call Unit
  | kSemTake : Call Unit
  | lineCtrlGetDtr : Call UInt32
  | lineCtrlGetBaudRate : Call ℤ
  | lineCtrlSetDcd : Call ℤ
  | lineCtrlSetDsr : Call ℤ
  | irqCallbackSet : Call Unit
  | irqRxEnable : Call Unit
  | logErr (e : LogErr) : Call Unit
  | nextMessage : Call Msg

/-! ## The message callback -/

def printBaudrate : Prog Call Unit := do
  let _ ← Call.lineCtrlGetBaudRate

/-- Switch device support, and report that it failed. -/
def switch (c : Call ℤ) (e : LogErr) : Prog Call Unit := do
  let err ← c
  if err ≠ 0 then
    Call.logErr e

def onVbus : Msg → Prog Call Unit
  | .vbusReady => switch .usbdEnable .enableFailed
  | .vbusRemoved => switch .usbdDisable .disableFailed
  | _ => pure ()

def detectVbus (msg : Msg) : Prog Call Unit := do
  let detects ← Call.usbdCanDetectVbus
  if detects then
    onVbus msg

def onControlLineState : Prog Call Unit := do
  let dtr ← Call.lineCtrlGetDtr
  if dtr ≠ 0 then
    Call.kSemGive

def onLine : Msg → Prog Call Unit
  | .controlLineState => onControlLineState
  | .lineCoding => printBaudrate
  | _ => pure ()

def sampleMsgCb (msg : Msg) : Prog Call Unit := do
  detectVbus msg
  onLine msg

/-! ## The main program -/

def enableUsbDeviceNext : Prog Call ℤ := do
  let created ← Call.usbdInitDevice
  if !created then
    Call.logErr .initFailed
    return noDevice
  let detects ← Call.usbdCanDetectVbus
  if !detects then
    let err ← Call.usbdEnable
    if err ≠ 0 then
      Call.logErr .enableFailed
    return err
  return 0

/-- What `main` does once DTR is set. -/
def startEcho : Prog Call ℤ := do
  let _ ← Call.lineCtrlSetDcd
  let _ ← Call.lineCtrlSetDsr
  Call.irqCallbackSet
  Call.irqRxEnable
  return 0

def main : Prog Call ℤ := do
  let ready ← Call.deviceIsReady
  if !ready then
    Call.logErr .notReady
    return 0
  let ret ← enableUsbDeviceNext
  if ret ≠ 0 then
    Call.logErr .usbFailed
    return 0
  Call.ringBufInit
  Call.kSemTake
  startEcho

/-- The thread of the USB stack hands out the messages one after the other. -/
def usbd : Prog Call ℤ := Prog.repeatM () fun _ => do
  let msg ← Call.nextMessage
  sampleMsgCb msg
  return .inl ()

inductive Party
  | main
  | usbd
  deriving DecidableEq

def program : Party → Prog Call ℤ
  | .main => main
  | .usbd => usbd

/-! ## The USB stack and the semaphore beside it -/

structure Stack where
  canDetectVbus : Bool
  initialised : Bool
  enabled : Bool
  /-- The count of `dtr_sem`, at most 1. -/
  dtrSem : ℕ
  callback : Bool
  rxIrq : Bool
  /-- Records that the code does not read: the last message about the bus voltage was that it is
  there; switching device support has failed; a callback has found DTR set; the semaphore has been
  given. -/
  vbus : Bool
  failed : Bool
  dtr : Bool
  given : Bool

def boot (canDetectVbus : Bool) : Stack :=
  ⟨canDetectVbus, false, false, 0, false, false, false, false, false, false⟩

def Msg.vbus : Msg → Bool → Bool
  | .vbusReady, _ => true
  | .vbusRemoved, _ => false
  | _, b => b

/-- Device support is switched to `b`, or stays as it is. -/
def Switched (b : Bool) (s : Stack) (err : ℤ) (t : Stack) : Prop :=
  err = 0 ∧ t = { s with enabled := b } ∨ err ≠ 0 ∧ t = { s with failed := true }

def stack : Device Call Stack where
  answer
    | .deviceIsReady, s, _, t => t = s
    | .usbdInitDevice, s, r, t => t = { s with initialised := s.initialised || r }
    | .usbdCanDetectVbus, s, r, t => r = s.canDetectVbus ∧ t = s
    | .usbdEnable, s, r, t => Switched true s r t
    | .usbdDisable, s, r, t => Switched false s r t
    | .ringBufInit, s, _, t => t = s
    | .kSemGive, s, _, t => t = { s with dtrSem := min (s.dtrSem + 1) 1, given := true }
    | .kSemTake, s, _, t => 0 < s.dtrSem ∧ t = { s with dtrSem := s.dtrSem - 1 }
    | .lineCtrlGetDtr, s, r, t => t = { s with dtr := s.dtr || r ≠ 0 }
    | .lineCtrlGetBaudRate, s, _, t => t = s
    | .lineCtrlSetDcd, s, _, t => t = s
    | .lineCtrlSetDsr, s, _, t => t = s
    | .irqCallbackSet, s, _, t => t = { s with callback := true }
    | .irqRxEnable, s, _, t => t = { s with rxIrq := true }
    | .logErr _, s, _, t => t = s
    | .nextMessage, s, msg, t => s.initialised = true ∧ t = { s with vbus := msg.vbus s.vbus }
  move _ _ := False

/-! ## Runs of the stack -/

/-- Everything succeeds, DTR is set, and each message is `msg`. -/
def reply (msg : Msg) {ρ : Type} : Call ρ → Stack → Option (ρ × Stack)
  | .deviceIsReady, s => some (true, s)
  | .usbdInitDevice, s => some (true, { s with initialised := true })
  | .usbdCanDetectVbus, s => some (s.canDetectVbus, s)
  | .usbdEnable, s => some (0, { s with enabled := true })
  | .usbdDisable, s => some (0, { s with enabled := false })
  | .ringBufInit, s => some ((), s)
  | .kSemGive, s => some ((), { s with dtrSem := min (s.dtrSem + 1) 1, given := true })
  | .kSemTake, s => if 0 < s.dtrSem then some ((), { s with dtrSem := s.dtrSem - 1 }) else none
  | .lineCtrlGetDtr, s => some (1, { s with dtr := true })
  | .lineCtrlGetBaudRate, s => some (0, s)
  | .lineCtrlSetDcd, s => some (0, s)
  | .lineCtrlSetDsr, s => some (0, s)
  | .irqCallbackSet, s => some ((), { s with callback := true })
  | .irqRxEnable, s => some ((), { s with rxIrq := true })
  | .logErr _, s => some ((), s)
  | .nextMessage, s => if s.initialised then some (msg, { s with vbus := msg.vbus s.vbus }) else none

theorem reply_follows (msg : Msg) : Script.Follows (reply msg) stack := by
  intro ρ c s r t h
  refine ⟨s, .refl, ?_⟩
  cases c with
  | usbdInitDevice =>
    cases h
    exact (congrArg (fun b => { s with initialised := b }) (Bool.or_true _)).symm
  | usbdCanDetectVbus =>
    cases h
    exact ⟨rfl, rfl⟩
  | usbdEnable | usbdDisable =>
    cases h
    exact .inl ⟨rfl, rfl⟩
  | kSemTake =>
    simp only [reply] at h
    split at h
    · next hpos =>
      cases h
      exact ⟨hpos, rfl⟩
    · cases h
  | lineCtrlGetDtr =>
    cases h
    exact (congrArg (fun b => { s with dtr := b }) (Bool.or_true _)).symm
  | nextMessage =>
    simp only [reply] at h
    split at h
    · next hinit =>
      cases h
      exact ⟨hinit, rfl⟩
    · cases h
  | _ =>
    cases h
    rfl

end NrfProjects.CdcAcm.UsbNext
