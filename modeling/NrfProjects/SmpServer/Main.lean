import Mathlib.Data.Int.Notation
import NrfProjects.Interaction.Errno
import NrfProjects.Interaction.Parallel
import NrfProjects.Interaction.Replay

/-! # The mcumgr server (`demos2/smp_server_demo`)

Three threads run beside each other: `main`, which starts Bluetooth and then counts seconds; the
thread of the Bluetooth host, which calls the connection callbacks; and the system work queue,
which runs `advertise` whenever its work item has been submitted. Submitting an item that is queued
already changes nothing. The contents of the advertisement are left out: no code reads them. -/

namespace NrfProjects.SmpServer
set_option autoImplicit false
open Interaction

/-- `-EALREADY` -/
def already : Errno := ⟨-120, by decide⟩

inductive Message
  | appRunning
  | statsFailed (rc : ℤ)
  | mountFailed (rc : ℤ)
  | usbFailed
  | buildTime
  | advertisingFailed (rc : ℤ)
  | advertisingStarted
  | connectionFailed (err : UInt8)
  | connected
  | disconnected (reason : UInt8)
  | initFailed (err : ℤ)
  | enableFailed (rc : ℤ)

/-- What the Bluetooth host calls the application for. -/
inductive Event
  | ready (err : ℤ)
  | connected (err : UInt8)
  | disconnected (reason : UInt8)
  | recycled

/-- The last two calls are those of the other threads when they wait for something to do. -/
inductive Call : Type → Type
  | log (m : Message) : Call Unit
  | statsInitAndReg : Call ℤ
  | fsMount : Call ℤ
  | usbEnable : Call ℤ
  | kSleep (ms : ℕ) : Call Unit
  | statsIncTicks : Call Unit
  | kWorkInit : Call Unit
  | kWorkSubmit : Call Unit
  | btEnable : Call ℤ
  | btLeAdvStart : Call ℤ
  | nextEvent : Call Event
  | nextWork : Call Unit

/-! ## `bluetooth.c` -/

def advertise : Prog Call Unit := do
  let rc ← Call.btLeAdvStart
  if rc ≠ 0 then
    Call.log (.advertisingFailed rc)
  else
    Call.log .advertisingStarted

def connected (err : UInt8) : Prog Call Unit := do
  if err ≠ 0 then
    Call.log (.connectionFailed err)
    Call.kWorkSubmit
  else
    Call.log .connected

def disconnected (reason : UInt8) : Prog Call Unit := Call.log (.disconnected reason)

def onConnRecycled : Prog Call Unit := Call.kWorkSubmit

def btReady (err : ℤ) : Prog Call Unit := do
  if err ≠ 0 then
    Call.log (.initFailed err)
  else
    Call.kWorkSubmit

def startSmpBluetoothAdverts : Prog Call Unit := do
  Call.kWorkInit
  let rc ← Call.btEnable
  if rc ≠ 0 then
    Call.log (.enableFailed rc)

/-! ## `main.c` -/

/-- `CONFIG_MCUMGR_GRP_FS`, `CONFIG_MCUMGR_TRANSPORT_BT` and `CONFIG_USB_DEVICE_STACK`. -/
structure Config where
  grpFs : Bool
  transportBt : Bool
  usbDeviceStack : Bool

/-- Code under an `#ifdef`. -/
def ifdef (option : Bool) (p : Prog Call Unit) : Prog Call Unit := if option then p else pure ()

def initStats : Prog Call Unit := do
  let rc ← Call.statsInitAndReg
  if rc < 0 then
    Call.log (.statsFailed rc)

def mountStorage : Prog Call Unit := do
  let rc ← Call.fsMount
  if rc < 0 then
    Call.log (.mountFailed rc)

def ticks : Prog Call ℤ := Prog.repeatM () fun _ => do
  Call.kSleep 1000
  Call.statsIncTicks
  return .inl ()

/-- The end of `main`, once USB is on or is not wanted. -/
def serve : Prog Call ℤ := do
  Call.log .buildTime
  ticks

def startUsb : Prog Call ℤ := do
  let rc ← Call.usbEnable
  -- USB CDC is likely already initialised
  if rc ≠ 0 ∧ rc ≠ already.code then
    Call.log .usbFailed
    return 0
  serve

def main (cfg : Config) : Prog Call ℤ := do
  Call.log .appRunning
  initStats
  ifdef cfg.grpFs mountStorage
  ifdef cfg.transportBt startSmpBluetoothAdverts
  if cfg.usbDeviceStack then
    startUsb
  else
    serve

/-! ## The other threads -/

def callback : Event → Prog Call Unit
  | .ready err => btReady err
  | .connected err => connected err
  | .disconnected reason => disconnected reason
  | .recycled => onConnRecycled

def host : Prog Call ℤ := Prog.repeatM () fun _ => do
  let event ← Call.nextEvent
  callback event
  return .inl ()

def workqueue : Prog Call ℤ := Prog.repeatM () fun _ => do
  Call.nextWork
  advertise
  return .inl ()

inductive Party
  | main
  | host
  | workqueue
  deriving DecidableEq

def server (cfg : Config) : Party → Prog Call ℤ
  | .main => main cfg
  | .host => host
  | .workqueue => workqueue

/-! ## The Bluetooth stack and the work item beside them -/

/-- A connection object: in the pool, held by the advertiser, held by a link whose `connected` is
still to be called, by an open link, or by one that has ended and is not released yet. -/
inductive Slot
  | free
  | advertising
  | established
  | refused
  | opened
  | ended
  deriving DecidableEq

inductive Bt
  | off
  | enabling
  | up
  | down
  deriving DecidableEq

structure Stack (maxConn : ℕ) where
  initialised : Bool
  queued : Bool
  bt : Bt
  slots : Fin maxConn → Slot
  /-- Objects back in the pool whose `recycled` is still to be called. -/
  recycles : ℕ
  ticks : UInt32
  /-- Three records that the code does not read. The work item has been taken off the queue and has
  not called `bt_le_adv_start` yet; an event has been delivered that asks for advertising, and its
  callback has not submitted yet; the last start that was not refused has failed. -/
  starting : Bool
  owed : Bool
  failed : Bool

variable {maxConn : ℕ}

def boot : Stack maxConn := ⟨false, false, .off, fun _ => .free, 0, 0, false, false, false⟩

/-- The events after which the application wants to advertise. -/
def Event.asks : Event → Bool
  | .ready err => err = 0
  | .connected err => err ≠ 0
  | .disconnected _ => false
  | .recycled => true

def Stack.move (s : Stack maxConn) (i : Fin maxConn) (slot : Slot) : Stack maxConn :=
  { s with slots := Function.update s.slots i slot }

/-- The stack delivers an event. -/
inductive Delivers : Stack maxConn → Event → Stack maxConn → Prop
  | up {s : Stack maxConn} (h : s.bt = .enabling) : Delivers s (.ready 0) { s with bt := .up }
  | down {s : Stack maxConn} {err : ℤ} (h : s.bt = .enabling) (herr : err ≠ 0) :
      Delivers s (.ready err) { s with bt := .down }
  | connected {s : Stack maxConn} {i : Fin maxConn} (h : s.slots i = .established) :
      Delivers s (.connected 0) (s.move i .opened)
  | refused {s : Stack maxConn} {i : Fin maxConn} {err : UInt8} (h : s.slots i = .refused)
      (herr : err ≠ 0) : Delivers s (.connected err) (s.move i .ended)
  | disconnected {s : Stack maxConn} {i : Fin maxConn} {reason : UInt8} (h : s.slots i = .opened) :
      Delivers s (.disconnected reason) (s.move i .ended)
  | recycled {s : Stack maxConn} (h : 0 < s.recycles) :
      Delivers s .recycled { s with recycles := s.recycles - 1 }

/-- A start takes a free object; it is refused while there is an advertiser or no free object, and
may fail otherwise. -/
inductive Starts : Stack maxConn → ℤ → Stack maxConn → Prop
  | started {s : Stack maxConn} {i : Fin maxConn} (hbt : s.bt = .up) (h : s.slots i = .free)
      (hnone : ∀ j, s.slots j ≠ .advertising) :
      Starts s 0 { s.move i .advertising with starting := false, failed := false }
  | refused {s : Stack maxConn} {rc : ℤ} (hrc : rc ≠ 0)
      (h : (∃ i, s.slots i = .advertising) ∨ ∀ i, s.slots i ≠ .free) :
      Starts s rc { s with starting := false }
  | failed {s : Stack maxConn} {rc : ℤ} (hrc : rc ≠ 0) :
      Starts s rc { s with starting := false, failed := true }

/-- The advertiser's object becomes a link, or fails to; an ended link is released. -/
inductive Moves : Stack maxConn → Stack maxConn → Prop
  | established {s : Stack maxConn} {i : Fin maxConn} (h : s.slots i = .advertising) :
      Moves s (s.move i .established)
  | refused {s : Stack maxConn} {i : Fin maxConn} (h : s.slots i = .advertising) :
      Moves s (s.move i .refused)
  | released {s : Stack maxConn} {i : Fin maxConn} (h : s.slots i = .ended) :
      Moves s { s.move i .free with recycles := s.recycles + 1 }

def stack (maxConn : ℕ) : Device Call (Stack maxConn) where
  answer
    | .log _, s, _, t => t = s
    | .statsInitAndReg, s, _, t => t = s
    | .fsMount, s, _, t => t = s
    | .usbEnable, s, _, t => t = s
    | .kSleep _, s, _, t => t = s
    | .statsIncTicks, s, _, t => t = { s with ticks := s.ticks + 1 }
    | .kWorkInit, s, _, t => t = { s with initialised := true, queued := false }
    | .kWorkSubmit, s, _, t => t = { s with queued := true, owed := false }
    | .btEnable, s, rc, t =>
      rc = 0 ∧ s.bt = .off ∧ t = { s with bt := .enabling } ∨ rc ≠ 0 ∧ t = s
    | .btLeAdvStart, s, rc, t => Starts s rc t
    | .nextEvent, s, event, t => ∃ u, Delivers s event u ∧ t = { u with owed := event.asks }
    | .nextWork, s, _, t => s.queued = true ∧ t = { s with queued := false, starting := true }
  move := Moves

/-! ## Runs of the stack -/

/-- Everything succeeds, but for `bt_le_adv_start` where `rc` is not 0. -/
def reply (rc : ℤ) {ρ : Type} : Call ρ → Stack 1 → Option (ρ × Stack 1)
  | .log _, s => some ((), s)
  | .statsInitAndReg, s => some (0, s)
  | .fsMount, s => some (0, s)
  | .usbEnable, s => some (0, s)
  | .kSleep _, _ => none
  | .statsIncTicks, s => some ((), { s with ticks := s.ticks + 1 })
  | .kWorkInit, s => some ((), { s with initialised := true, queued := false })
  | .kWorkSubmit, s => some ((), { s with queued := true, owed := false })
  | .btEnable, s => if s.bt = .off then some (0, { s with bt := .enabling }) else none
  | .btLeAdvStart, s =>
    if rc ≠ 0 then some (rc, { s with starting := false, failed := true })
    else if s.bt = .up ∧ s.slots 0 = .free then
      some (0, { s.move 0 .advertising with starting := false, failed := false })
    else none
  | .nextEvent, s =>
    if s.bt = .enabling then some (.ready 0, { s with bt := .up, owed := true }) else none
  | .nextWork, s =>
    if s.queued then some ((), { s with queued := false, starting := true }) else none

theorem reply_follows (rc : ℤ) : Script.Follows (reply rc) (stack 1) := by
  intro ρ c s r t h
  refine ⟨s, .refl, ?_⟩
  cases c with
  | btEnable =>
    simp only [reply] at h
    split at h
    · next hoff =>
      cases h
      exact .inl ⟨rfl, hoff, rfl⟩
    · cases h
  | btLeAdvStart =>
    simp only [reply] at h
    split at h
    · next hrc =>
      cases h
      exact .failed hrc
    · split at h
      · next hfree =>
        cases h
        refine .started hfree.1 hfree.2 fun j => ?_
        rw [Subsingleton.elim j 0, hfree.2]
        decide
      · cases h
  | nextEvent =>
    simp only [reply] at h
    split at h
    · next hbt =>
      cases h
      exact ⟨_, .up hbt, rfl⟩
    · cases h
  | nextWork =>
    simp only [reply] at h
    split at h
    · next hqueued =>
      cases h
      exact ⟨hqueued, rfl⟩
    · cases h
  | kSleep => cases h
  | _ =>
    cases h
    rfl

end NrfProjects.SmpServer
