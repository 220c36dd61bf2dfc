import NrfProjects.Encoding.Text
import NrfProjects.Interaction.Program
import NrfProjects.Littlefs.Pattern
import Mathlib.Data.Int.Notation

/-! # The littlefs demo (`demos1/littlefs`)

At each boot `main` counts in one file, rewrites a text file with a counter of its own, and creates
or changes a binary file, which it then removes. The C statics `write_count` and `file_test_pattern`
are passed on by the two functions that use them. Messages are left out, and so is `rmdir`, which
nothing calls. -/

namespace NrfProjects.Littlefs
set_option autoImplicit false
open Interaction Encoding

def TEST_FILE_SIZE : ℕ := 547

/-- The local `file` of each function that opens one. -/
inductive FileVar
  | bootCount
  | text
  | binary
  deriving DecidableEq, Repr

inductive DirEntryType
  | file
  | dir
  deriving DecidableEq, Repr

structure Dirent where
  type : DirEntryType
  size : ℕ
  deriving DecidableEq, Repr

/-- A read answers with its return code and the bytes it stored in the buffer, a directory read
with its return code and the entry's name. `memFault` is an access outside an array. -/
inductive Call : Type → Type
  | flashAreaOpen : Call ℤ
  | flashAreaFlatten : Call ℤ
  | flashAreaClose : Call Unit
  | fsMount : Call ℤ
  | fsStatvfs : Call ℤ
  | fsOpendir (path : String) : Call ℤ
  | fsReaddir : Call (ℤ × String)
  | fsClosedir : Call ℤ
  | fsOpen (file : FileVar) (path : String) : Call ℤ
  | fsStat (path : String) : Call (ℤ × Dirent)
  | fsRead (file : FileVar) (len : ℕ) : Call (ℤ × List UInt8)
  | fsSeek (file : FileVar) (pos : ℕ) : Call ℤ
  | fsWrite (file : FileVar) (data : List UInt8) : Call ℤ
  | fsTruncate (file : FileVar) (len : ℕ) : Call ℤ
  | fsClose (file : FileVar) : Call ℤ
  | fsUnlink (path : String) : Call ℤ
  | fsUnmount : Call ℤ
  | kUptimeGet : Call ℤ
  | memFault : Call Empty

def inside {α : Type} (x : Option α) : Prog Call α :=
  match x with
  | some a => return a
  | none => do
    let e ← Call.memFault
    nomatch e

/-! ## Directories -/

/-- Read entries up to an error or the end of the directory, an entry without a name. -/
def readEntries : Prog Call ℤ := Prog.repeatM () fun _ => do
  let (res, name) ← Call.fsReaddir
  if res ≠ 0 ∨ name = "" then
    return .inr res
  return .inl ()

def lsdir (path : String) : Prog Call ℤ := do
  let res ← Call.fsOpendir path
  if res ≠ 0 then
    return res
  let res ← readEntries
  let _ ← Call.fsClosedir
  return res

def rmfile (path : String) : Prog Call ℤ := do
  let res ← Call.fsUnlink path
  if res ≠ 0 then
    return res
  return 0

/-! ## Changing a file -/

/-- What the three functions below share: open the file, go through `steps` until one fails, close
the file, and answer with the first failure. `static` is the static variable of the function. -/
def onFile {σ : Type} (file : FileVar) (fname : String) (static : σ)
    (steps : Prog Call (ℤ × σ)) : Prog Call (ℤ × σ) := do
  let rc ← Call.fsOpen file fname
  if rc < 0 then
    return (rc, static)
  let (rc, static) ← steps
  let ret ← Call.fsClose file
  if ret < 0 then
    return (ret, static)
  return (if rc < 0 then rc else 0, static)

def bootCountSteps : Prog Call (ℤ × Unit) := do
  let (rc, data) ← Call.fsRead .bootCount 1
  if rc < 0 then
    return (rc, ())
  let bootCount := data.headD 0
  let rc ← Call.fsSeek .bootCount 0
  if rc < 0 then
    return (rc, ())
  let rc ← Call.fsWrite .bootCount [bootCount + 1]
  return (rc, ())

def littlefsIncreaseInfileValue (fname : String) : Prog Call ℤ := do
  let (rc, _) ← onFile .bootCount fname () bootCountSteps
  return rc

/-- The pattern to write: a fresh one for a new file, else the old one changed. -/
def nextPattern (fname : String) (fileTestPattern : List UInt8) :
    Prog Call (ℤ × List UInt8) := do
  let (rc, dirent) ← Call.fsStat fname
  if rc < 0 then
    return (rc, fileTestPattern)
  if rc = 0 ∧ dirent.type = .file ∧ dirent.size = 0 then
    let fileTestPattern ← inside (initPattern fileTestPattern TEST_FILE_SIZE)
    return (rc, fileTestPattern)
  let (rc, data) ← Call.fsRead .binary TEST_FILE_SIZE
  if rc < 0 then
    return (rc, fileTestPattern)
  let fileTestPattern := data ++ fileTestPattern.drop data.length
  let fileTestPattern ← inside (incrPattern fileTestPattern TEST_FILE_SIZE 0x1)
  return (rc, fileTestPattern)

def binarySteps (fname : String) (fileTestPattern : List UInt8) :
    Prog Call (ℤ × List UInt8) := do
  let (rc, fileTestPattern) ← nextPattern fname fileTestPattern
  if rc < 0 then
    return (rc, fileTestPattern)
  let rc ← Call.fsSeek .binary 0
  if rc < 0 then
    return (rc, fileTestPattern)
  let rc ← Call.fsWrite .binary fileTestPattern
  return (rc, fileTestPattern)

def littlefsBinaryFileAdj (fname : String) (fileTestPattern : List UInt8) :
    Prog Call (ℤ × List UInt8) :=
  onFile .binary fname fileTestPattern (binarySteps fname fileTestPattern)

/-! ## The text file -/

/-- Conversion to a 32-bit `int`. -/
def toInt32 (n : ℤ) : ℤ := n.bmod (2 ^ 32)

def countFormat : List UInt8 := ascii "Write count: "

/-- The text that follows the count. -/
def afterCount : List UInt8 := ascii
  "\nHello from LittleFS!\nThis is a text file example.\nCurrent time: "

def textContent (writeCount time : ℤ) : List UInt8 :=
  countFormat ++ (intText writeCount ++ (afterCount ++ (intText time ++ ascii " ms\n")))

/-- What `snprintf` leaves of a text in a buffer of `size` bytes, the terminating zero apart. -/
def snprintf (size : ℕ) (text : List UInt8) : List UInt8 := text.take (size - 1)

/-- `sscanf(…, "Write count: %d", &write_count)` on a buffer that ends with a zero byte. What does
not fit an `int` is left open by the C standard, and wraps here. -/
def sscanfCount (tempBuffer : List UInt8) (writeCount : ℤ) : ℤ :=
  match (scanLiteral countFormat (tempBuffer.takeWhile (· ≠ 0))).bind scanInt with
  | some n => toInt32 n
  | none => writeCount

/-- The count that the file holds, 0 for a new file; a count that cannot be read stays as it is. -/
def oldCount (fname : String) (writeCount : ℤ) : Prog Call (ℤ × ℤ) := do
  let (rc, dirent) ← Call.fsStat fname
  if rc < 0 then
    return (rc, writeCount)
  if rc = 0 ∧ dirent.type = .file ∧ dirent.size = 0 then
    return (rc, 0)
  let (rc, tempBuffer) ← Call.fsRead .text 31
  if rc > 0 then
    return (0, sscanfCount tempBuffer writeCount)
  -- a failed read is not an error here
  return (0, writeCount)

def textSteps (fname : String) (writeCount : ℤ) : Prog Call (ℤ × ℤ) := do
  let (rc, writeCount) ← oldCount fname writeCount
  if rc < 0 then
    return (rc, writeCount)
  let writeCount := toInt32 (writeCount + 1)
  let time ← Call.kUptimeGet
  let content := snprintf 256 (textContent writeCount (toInt32 time))
  let rc ← Call.fsSeek .text 0
  if rc < 0 then
    return (rc, writeCount)
  let rc ← Call.fsWrite .text content
  if rc < 0 then
    return (rc, writeCount)
  let rc ← Call.fsTruncate .text content.length
  return (rc, writeCount)

def littlefsTextFileWrite (fname : String) (writeCount : ℤ) : Prog Call (ℤ × ℤ) :=
  onFile .text fname writeCount (textSteps fname writeCount)

/-! ## The main program -/

/-- Where the file system lies: a flash partition, one from the device tree's `fstab` that is to be
mounted before `main`, or a disk. -/
inductive Storage
  | flash
  | fstab
  | sd
  | mmc
  deriving DecidableEq, Repr

def Storage.mntPoint : Storage → String
  | .flash => "/lfs"
  | .fstab => "/lfs1"
  | .sd => "/SD:"
  | .mmc => "/SD2:"

/-- `wipe` is `CONFIG_APP_WIPE_STORAGE`. -/
def optionalWipe (wipe : Bool) (rc : ℤ) : Prog Call ℤ :=
  if wipe then Call.flashAreaFlatten else return rc

def littlefsFlashErase (wipe : Bool) : Prog Call ℤ := do
  let rc ← Call.flashAreaOpen
  if rc < 0 then
    return rc
  let rc ← optionalWipe wipe rc
  Call.flashAreaClose
  return rc

def littlefsMount (wipe : Bool) : Storage → Prog Call ℤ
  | .flash => do
    let rc ← littlefsFlashErase wipe
    if rc < 0 then
      return rc
    let rc ← Call.fsMount
    if rc < 0 then
      return rc
    return 0
  | .fstab => do
    let rc ← littlefsFlashErase wipe
    if rc < 0 then
      return rc
    return 0
  | .sd => do return ← Call.fsMount
  | .mmc => do return ← Call.fsMount

variable (storage : Storage)

def fname1 : String := storage.mntPoint ++ "/boot_count"

def fname2 : String := storage.mntPoint ++ "/test.txt"

def fname3 : String := storage.mntPoint ++ "/pattern.bin"

/-- What `main` does with the file system mounted, up to the first failure. -/
def demo : Prog Call Unit := do
  if (← Call.fsStatvfs) < 0 then
    return
  if (← lsdir storage.mntPoint) < 0 then
    return
  if (← littlefsIncreaseInfileValue (fname1 storage)) ≠ 0 then
    return
  if (← littlefsTextFileWrite (fname2 storage) 0).1 ≠ 0 then
    return
  if (← littlefsBinaryFileAdj (fname3 storage) (List.replicate TEST_FILE_SIZE 0)).1 ≠ 0 then
    return
  if (← rmfile (fname3 storage)) ≠ 0 then
    return
  let _ ← lsdir storage.mntPoint

/-- `main`, in a build with the option to wipe the flash area or without it. -/
def mainWith (wipe : Bool) : Prog Call ℤ := do
  if (← littlefsMount wipe storage) < 0 then
    return 0
  demo storage
  let _ ← Call.fsUnmount
  return 0

/-- As the configuration files have it, which leave the option unset. -/
def main : Prog Call ℤ := mainWith storage false

end NrfProjects.Littlefs
