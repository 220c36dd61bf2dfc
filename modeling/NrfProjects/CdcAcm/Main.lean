import Mathlib.Data.Int.Notation
import NrfProjects.Containers.RingBuf
import NrfProjects.Interaction.Projection
import NrfProjects.Interaction.Replay
import NrfProjects.Interaction.Safety

/-! # The USB echo (`demos2/cdc_acm_demo`)

The interrupt handler moves received bytes through a ring buffer back to the host, and throttles
reception while the ring is full. The program is built with the legacy USB stack. Warnings,
information and debug messages and sleeping are left out; error messages are kept. -/

namespace NrfProjects.CdcAcm
set_option autoImplicit false
open Interaction Containers

def RING_BUF_SIZE : ℕ := 1024

/-- `sizeof(buffer)`, in both halves of the handler. -/
def bufferSize : ℕ := 64

inductive LogErr
  | notReady
  | usbFailed
  | readFailed
  | dropReceived (bytes : ℤ)
  | dropSent (bytes : ℤ)
  deriving DecidableEq, Repr

/-- A read answers with its return code and the bytes it stored in the buffer. -/
inductive Call : Type → Type
  | deviceIsReady : Call Bool
  | usbEnable : Call ℤ
  | ringBufInit : Call Unit
  | lineCtrlGetDtr : Call Bool
  | lineCtrlSetDcd : Call ℤ
  | lineCtrlSetDsr : Call ℤ
  | irqCallbackSet : Call Unit
  | irqUpdate : Call Bool
  | irqIsPending : Call Bool
  | irqRxReady : Call Bool
  | irqTxReady : Call Bool
  | irqRxEnable : Call Unit
  | irqRxDisable : Call Unit
  | irqTxEnable : Call Unit
  | irqTxDisable : Call Unit
  | fifoRead (len : ℕ) : Call (ℤ × List UInt8)
  | fifoFill (data : List UInt8) : Call ℤ
  | ringBufSpaceGet : Call ℕ
  | ringBufPut (data : List UInt8) : Call ℕ
  | ringBufGet (len : ℕ) : Call (List UInt8)
  | rxThrottled : Call Bool
  | setRxThrottled (b : Bool) : Call Unit
  | logErr (e : LogErr) : Call Unit
  | interrupt : Call Unit

/-! ## The interrupt handler -/

/-- The first `recvLen` bytes of the buffer go into the ring. -/
def store (recvLen : ℤ) (buffer : List UInt8) : Prog Call Unit := do
  let rbLen ← Call.ringBufPut (buffer.take recvLen.toNat)
  if rbLen < recvLen then
    Call.logErr (.dropReceived (recvLen - rbLen))
  if rbLen ≠ 0 then
    Call.irqTxEnable

/-- The receive half; `true` if it ends the round with `continue`. -/
def receive : Prog Call Bool := do
  if ← Call.rxThrottled then
    return false
  unless ← Call.irqRxReady do
    return false
  let len := min (← Call.ringBufSpaceGet) bufferSize
  if len = 0 then
    -- throttle because the ring buffer is full
    Call.irqRxDisable
    Call.setRxThrottled true
    return true
  let (recvLen, buffer) ← Call.fifoRead len
  if recvLen < 0 then
    Call.logErr .readFailed
    store 0 buffer
  else
    store recvLen buffer
  return false

/-- The bytes from the ring are offered to the driver. -/
def send (buffer : List UInt8) : Prog Call Unit := do
  let sendLen ← Call.fifoFill buffer
  if sendLen < buffer.length then
    Call.logErr (.dropSent (buffer.length - sendLen))

def transmit : Prog Call Unit := do
  unless ← Call.irqTxReady do
    return ()
  let buffer ← Call.ringBufGet bufferSize
  if buffer.length = 0 then
    Call.irqTxDisable
    return ()
  if ← Call.rxThrottled then
    Call.irqRxEnable
    Call.setRxThrottled false
  send buffer

def round : Prog Call (Unit ⊕ Unit) := do
  unless ← Call.irqUpdate do
    return .inr ()
  unless ← Call.irqIsPending do
    return .inr ()
  unless ← receive do
    transmit
  return .inl ()

def interruptHandler : Prog Call Unit := Prog.repeatM () fun _ => round

/-- The handler runs at each interrupt, one run after the other. -/
def interrupts : Prog Call Unit := Prog.repeatM () fun _ => do
  Call.interrupt
  interruptHandler
  return .inl ()

/-! ## The main program -/

def waitForDtr : Prog Call Unit := Prog.repeatM () fun _ => do
  if ← Call.lineCtrlGetDtr then
    return .inr ()
  return .inl ()

def main : Prog Call ℤ := do
  unless ← Call.deviceIsReady do
    Call.logErr .notReady
    return 0
  if (← Call.usbEnable) ≠ 0 then
    Call.logErr .usbFailed
    return 0
  Call.ringBufInit
  waitForDtr
  let _ ← Call.lineCtrlSetDcd
  let _ ← Call.lineCtrlSetDsr
  Call.irqCallbackSet
  Call.irqRxEnable
  return 0

/-! ## The driver and the memory beside it -/

/-- A chunk offered to `uart_fifo_fill`, and how many bytes of it were accepted. -/
structure Fill where
  offered : List UInt8
  accepted : ℕ
  le : accepted ≤ offered.length

/-- The state but for the bytes that were received and not read yet. The last two fields are a
record that the code does not read: all bytes that were read, and all that was offered back. -/
structure Echo where
  ring : RingBuf UInt8 RING_BUF_SIZE
  rxThrottled : Bool
  rxIrq : Bool
  txIrq : Bool
  callback : Bool
  received : List UInt8
  fills : List Fill

/-- Every call may answer whatever its interface allows. -/
def echoDriver : Device Call Echo where
  answer
    | .deviceIsReady, s, _, t => t = s
    | .usbEnable, s, _, t => t = s
    | .ringBufInit, s, _, t => t = { s with ring := .empty }
    | .lineCtrlGetDtr, s, _, t => t = s
    | .lineCtrlSetDcd, s, _, t => t = s
    | .lineCtrlSetDsr, s, _, t => t = s
    | .irqCallbackSet, s, _, t => t = { s with callback := true }
    | .irqUpdate, s, _, t => t = s
    | .irqIsPending, s, _, t => t = s
    | .irqRxReady, s, _, t => t = s
    | .irqTxReady, s, _, t => t = s
    | .irqRxEnable, s, _, t => t = { s with rxIrq := true }
    | .irqRxDisable, s, _, t => t = { s with rxIrq := false }
    | .irqTxEnable, s, _, t => t = { s with txIrq := true }
    | .irqTxDisable, s, _, t => t = { s with txIrq := false }
    | .fifoRead len, s, r, t => r.1 < 0 ∧ r.2 = [] ∧ t = s ∨
        r.1 = r.2.length ∧ r.2.length ≤ len ∧ t = { s with received := s.received ++ r.2 }
    | .fifoFill data, s, r, t => ∃ f : Fill, f.offered = data ∧ r = f.accepted ∧
        t = { s with fills := s.fills ++ [f] }
    | .ringBufSpaceGet, s, r, t => r = s.ring.space ∧ t = s
    | .ringBufPut data, s, r, t => r = s.ring.stored data ∧ t = { s with ring := s.ring.put data }
    | .ringBufGet len, s, r, t => r = s.ring.get len ∧ t = { s with ring := s.ring.rest len }
    | .rxThrottled, s, r, t => r = s.rxThrottled ∧ t = s
    | .setRxThrottled b, s, _, t => t = { s with rxThrottled := b }
    | .logErr _, s, _, t => t = s
    | .interrupt, s, _, t => s.callback = true ∧ t = s
  move _ _ := False

structure System extends Echo where
  rxFifo : List UInt8

/-- The bytes a call takes from the receive FIFO. -/
def taken {ρ : Type} : Call ρ → ρ → List UInt8
  | .fifoRead _, r => r.2
  | _, _ => []

/-- Bytes may arrive between any two calls. -/
def driver : Device Call System where
  answer c s r t := echoDriver.answer c s.toEcho r t.toEcho ∧ s.rxFifo = taken c r ++ t.rxFifo
  move s t := ∃ byte, t = { s with rxFifo := s.rxFifo ++ [byte] }

instance : echoDriver.Quiet := ⟨fun _ _ h => h⟩

theorem driver_projects : driver.Projects System.toEcho echoDriver where
  answer _ _ _ _ h := h.1
  move s t h := by
    obtain ⟨byte, rfl⟩ := h
    exact .refl

/-! ## Runs of the driver -/

/-- A driver that is always ready, and accepts at most `accept` bytes of each chunk. -/
def reply (accept : ℕ) {ρ : Type} : Call ρ → System → Option (ρ × System)
  | .deviceIsReady, s => some (true, s)
  | .usbEnable, s => some (0, s)
  | .ringBufInit, s => some ((), { s with ring := .empty })
  | .lineCtrlGetDtr, s => some (true, s)
  | .lineCtrlSetDcd, s => some (0, s)
  | .lineCtrlSetDsr, s => some (0, s)
  | .irqCallbackSet, s => some ((), { s with callback := true })
  | .irqUpdate, s => some (true, s)
  | .irqIsPending, s => some (true, s)
  | .irqRxReady, s => some (true, s)
  | .irqTxReady, s => some (true, s)
  | .irqRxEnable, s => some ((), { s with rxIrq := true })
  | .irqRxDisable, s => some ((), { s with rxIrq := false })
  | .irqTxEnable, s => some ((), { s with txIrq := true })
  | .irqTxDisable, s => some ((), { s with txIrq := false })
  | .fifoRead len, s =>
    some (((s.rxFifo.take len).length, s.rxFifo.take len),
      { s with rxFifo := s.rxFifo.drop len, received := s.received ++ s.rxFifo.take len })
  | .fifoFill data, s =>
    some ((min accept data.length : ℕ),
      { s with fills := s.fills ++ [⟨data, min accept data.length, Nat.min_le_right _ _⟩] })
  | .ringBufSpaceGet, s => some (s.ring.space, s)
  | .ringBufPut data, s => some (s.ring.stored data, { s with ring := s.ring.put data })
  | .ringBufGet len, s => some (s.ring.get len, { s with ring := s.ring.rest len })
  | .rxThrottled, s => some (s.rxThrottled, s)
  | .setRxThrottled b, s => some ((), { s with rxThrottled := b })
  | .logErr _, s => some ((), s)
  | .interrupt, s => if s.callback then some ((), s) else none

theorem answer_of_reply (accept : ℕ) {ρ : Type} {c : Call ρ} {s t : System} {r : ρ}
    (h : reply accept c s = some (r, t)) : driver.answer c s r t := by
  cases c with
  | fifoRead len =>
    cases h
    exact ⟨.inr ⟨rfl, List.length_take_le _ _, rfl⟩, (List.take_append_drop len s.rxFifo).symm⟩
  | fifoFill data =>
    cases h
    exact ⟨⟨_, rfl, rfl, rfl⟩, rfl⟩
  | interrupt =>
    simp only [reply] at h
    split at h
    · next hset =>
      cases h
      exact ⟨⟨hset, rfl⟩, rfl⟩
    · cases h
  | ringBufSpaceGet | ringBufPut | ringBufGet | rxThrottled =>
    cases h
    exact ⟨⟨rfl, rfl⟩, rfl⟩
  | _ =>
    cases h
    exact ⟨rfl, rfl⟩

theorem reply_follows (accept : ℕ) : Script.Follows (reply accept) driver :=
  fun _ s _ _ h => ⟨s, .refl, answer_of_reply accept h⟩

end NrfProjects.CdcAcm
