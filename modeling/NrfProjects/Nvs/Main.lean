import NrfProjects.Encoding.LittleEndian
import NrfProjects.Interaction.Program
import Mathlib.Data.Int.Notation

/-! # The NVS demo (`demos1/nvs`)

`main` reads four items from non-volatile storage, creates those it does not find, counts a reboot
counter up over automatic reboots, and resets it after `MAX_REBOOT` of them. Printing and sleeping
are left out. -/

namespace NrfProjects.Nvs
set_option autoImplicit false
open Interaction Encoding

def ADDRESS_ID : ℕ := 1
def KEY_ID : ℕ := 2
def RBT_CNT_ID : ℕ := 3
def STRING_ID : ℕ := 4

/-- The Kconfig symbols, both C `int`s. -/
structure Config where
  maxReboot : ℕ
  countdown : ℕ
  one_le_maxReboot : 1 ≤ maxReboot
  maxReboot_lt : maxReboot < 2 ^ 31
  one_le_countdown : 1 ≤ countdown

/-- A read answers with its return code and the bytes it stored in the buffer. -/
inductive Call : Type → Type
  | deviceIsReady : Call Bool
  | flashGetPageInfoByOffs : Call ℤ
  | nvsMount : Call ℤ
  | nvsRead (id len : ℕ) : Call (ℤ × List UInt8)
  | nvsWrite (id : ℕ) (data : List UInt8) : Call ℤ
  | nvsDelete (id : ℕ) : Call ℤ
  | nvsReadHist (id len cnt : ℕ) : Call (ℤ × List UInt8)

/-- How a boot ends: `main` returns, or `sys_reboot` starts the next boot. -/
inductive Exit
  | returned
  | rebooted
  deriving DecidableEq, Repr

/-! ## The items -/

/-- A C string with its terminating zero. -/
def cString (s : String) : List UInt8 := s.toList.map (fun c => c.toNat.toUInt8) ++ [0]

def defaultAddress : List UInt8 := cString "192.168.1.1"

def defaultKey : List UInt8 := [0xFF, 0xFE, 0xFD, 0xFC, 0xFB, 0xFA, 0xF9, 0xF8]

def defaultString : List UInt8 := cString "DATA"

/-- Read an item; if the read answers with no bytes, write it. The answer is what was read. -/
def readOrAdd (id len : ℕ) (added : List UInt8 → List UInt8) : Prog Call (List UInt8) := do
  let (rc, data) ← Call.nvsRead id len
  if rc > 0 then
    return data
  -- taken for an item that was not found, whatever the error
  let _ ← Call.nvsWrite id (added data)
  return data

def addressStep : Prog Call (List UInt8) := readOrAdd ADDRESS_ID 16 fun _ => defaultAddress

def keyStep : Prog Call (List UInt8) := readOrAdd KEY_ID 8 fun _ => defaultKey

/-- `reboot_counter`, initially 0, once `data` is stored over its first bytes. -/
def loadCounter (data : List UInt8) : ℕ := ofLE (data ++ (toLE 4 0).drop data.length)

def counterStep : Prog Call ℕ := do
  let data ← readOrAdd RBT_CNT_ID 4 fun data => toLE 4 (loadCounter data)
  return loadCounter data

def stringStep (rebootCounter : ℕ) : Prog Call Unit := do
  let (rc, _) ← Call.nvsRead STRING_ID 16
  if rc > 0 then
    if rebootCounter = 10 then
      let _ ← Call.nvsDelete STRING_ID
  else
    if rebootCounter = 0 then
      let _ ← Call.nvsWrite STRING_ID defaultString

/-- The four items; the answer is `reboot_counter` in RAM. -/
def itemSteps : Prog Call ℕ := do
  let _ ← addressStep
  let _ ← keyStep
  let rebootCounter ← counterStep
  stringStep rebootCounter
  return rebootCounter

/-- All of `main` before the countdown loop; no answer if the flash cannot be used. -/
def prepare : Prog Call (Option ℕ) := do
  unless ← Call.deviceIsReady do
    return none
  if (← Call.flashGetPageInfoByOffs) ≠ 0 then
    return none
  if (← Call.nvsMount) ≠ 0 then
    return none
  let rebootCounter ← itemSteps
  return some rebootCounter

/-! ## The countdown -/

/-- Print the history of the counter, from entry `cntHis` on; the answer is the next `cntHis`. -/
def history (cntHis : ℕ) : Prog Call ℕ :=
  Prog.repeatM cntHis fun cntHis => do
    let (rc, _) ← Call.nvsReadHist RBT_CNT_ID 4 cntHis
    if rc < 0 then
      return .inr cntHis
    return .inl (cntHis + 1)

variable (cfg : Config)

/-- One round of the countdown loop, with loop variables `cnt` and `cnt_his`. -/
def countdownRound (rebootCounter : ℕ) (cnt : ℤ) (cntHis : ℕ) :
    Prog Call ((ℤ × ℕ) ⊕ Exit) := do
  if rebootCounter < cfg.maxReboot then
    let mut cntHis := cntHis
    if cnt = cfg.countdown then
      cntHis ← history cntHis
    let cnt := cnt - 1
    if cnt = 0 then
      let rebootCounter := (rebootCounter + 1) % 2 ^ 32
      let _ ← Call.nvsWrite RBT_CNT_ID (toLE 4 rebootCounter)
      return .inr .rebooted
    return .inl (cnt, cntHis)
  else
    let rebootCounter := 0
    let _ ← Call.nvsWrite RBT_CNT_ID (toLE 4 rebootCounter)
    return .inr .returned

def countdown (rebootCounter : ℕ) : Prog Call Exit :=
  Prog.repeatM ((cfg.countdown : ℤ), 0) fun x => countdownRound cfg rebootCounter x.1 x.2

def main : Prog Call Exit := do
  match ← prepare with
  | none => return .returned
  | some rebootCounter => countdown cfg rebootCounter

end NrfProjects.Nvs
