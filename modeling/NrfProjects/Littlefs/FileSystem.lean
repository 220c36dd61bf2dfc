import Mathlib.Logic.Function.Basic
import NrfProjects.Interaction.Replay
import NrfProjects.Interaction.Safety
import NrfProjects.Littlefs.Main

/-! # The file system beside the littlefs demo

Opening a file creates it at once; what is written through it, or cut off, reaches the disk when it
is closed, all together. A file has its own working copy until then, which a power cut loses.
`Faults` says which calls may fail, and how much of a write may be accepted. -/

namespace NrfProjects.Littlefs
set_option autoImplicit false
open Interaction

/-! ## The disk -/

/-- The files, and a record for each path that the code does not read: how often a closed file has
changed it, in all and since it was last absent. -/
structure Disk where
  files : String → Option (List UInt8)
  commits : String → ℕ
  sinceAbsent : String → ℕ

namespace Disk

def content (d : Disk) (path : String) : List UInt8 := (d.files path).getD []

def create (d : Disk) (path : String) : Disk :=
  { d with files := Function.update d.files path (some (d.content path)) }

def commit (d : Disk) (path : String) (image : List UInt8) : Disk where
  files := Function.update d.files path (some image)
  commits := Function.update d.commits path (d.commits path + 1)
  sinceAbsent := Function.update d.sinceAbsent path (d.sinceAbsent path + 1)

def unlink (d : Disk) (path : String) : Disk where
  files := Function.update d.files path none
  commits := d.commits
  sinceAbsent := Function.update d.sinceAbsent path 0

def formatted : Disk := ⟨fun _ => none, fun _ => 0, fun _ => 0⟩

variable {d : Disk} {path q : String} {image : List UInt8}

theorem create_self : (d.create path).files path = some (d.content path) :=
  Function.update_self ..

/-- Creating a file that exists changes nothing. -/
theorem create_some {x : List UInt8} (h : d.files q = some x) : (d.create path).files q = some x := by
  by_cases hq : q = path
  · subst hq
    rw [create_self, content, h, Option.getD_some]
  · exact (Function.update_of_ne hq _ _).trans h

@[simp] theorem create_commits : (d.create path).commits = d.commits := rfl

@[simp] theorem create_sinceAbsent : (d.create path).sinceAbsent = d.sinceAbsent := rfl

@[simp] theorem commit_files_self : (d.commit path image).files path = some image :=
  Function.update_self ..

@[simp] theorem commit_commits_self : (d.commit path image).commits path = d.commits path + 1 :=
  Function.update_self ..

@[simp] theorem commit_sinceAbsent_self :
    (d.commit path image).sinceAbsent path = d.sinceAbsent path + 1 :=
  Function.update_self ..

theorem commit_files (hq : q ≠ path) : (d.commit path image).files q = d.files q :=
  Function.update_of_ne hq _ _

theorem commit_commits (hq : q ≠ path) : (d.commit path image).commits q = d.commits q :=
  Function.update_of_ne hq _ _

theorem commit_sinceAbsent (hq : q ≠ path) :
    (d.commit path image).sinceAbsent q = d.sinceAbsent q :=
  Function.update_of_ne hq _ _

@[simp] theorem unlink_files_self : (d.unlink path).files path = none := Function.update_self ..

@[simp] theorem unlink_sinceAbsent_self : (d.unlink path).sinceAbsent path = 0 :=
  Function.update_self ..

theorem unlink_files (hq : q ≠ path) : (d.unlink path).files q = d.files q :=
  Function.update_of_ne hq _ _

theorem unlink_sinceAbsent (hq : q ≠ path) : (d.unlink path).sinceAbsent q = d.sinceAbsent q :=
  Function.update_of_ne hq _ _

end Disk

/-! ## Open files -/

structure OpenFile where
  path : String
  data : List UInt8
  pos : ℕ
  written : Bool

/-- `data` with `chunk` written over it from `pos` on; a gap before `pos` is filled with zeros. -/
def overwrite (data : List UInt8) (pos : ℕ) (chunk : List UInt8) : List UInt8 :=
  data.take pos ++ List.replicate (pos - data.length) 0 ++ chunk ++ data.drop (pos + chunk.length)

def resize (data : List UInt8) (len : ℕ) : List UInt8 :=
  data.take len ++ List.replicate (len - data.length) 0

namespace OpenFile

def opened (path : String) (data : List UInt8) : OpenFile := ⟨path, data, 0, false⟩

def chunk (h : OpenFile) (len : ℕ) : List UInt8 := (h.data.drop h.pos).take len

def read (h : OpenFile) (len : ℕ) : OpenFile := { h with pos := h.pos + (h.chunk len).length }

def seek (h : OpenFile) (pos : ℕ) : OpenFile := { h with pos := pos }

def write (h : OpenFile) (chunk : List UInt8) : OpenFile where
  path := h.path
  data := overwrite h.data h.pos chunk
  pos := h.pos + chunk.length
  written := true

def truncate (h : OpenFile) (len : ℕ) : OpenFile :=
  { h with data := resize h.data len, written := true }

end OpenFile

theorem overwrite_zero (data chunk : List UInt8) :
    overwrite data 0 chunk = chunk ++ data.drop chunk.length := by
  simp [overwrite]

theorem resize_append (chunk rest : List UInt8) : resize (chunk ++ rest) chunk.length = chunk := by
  simp [resize]

structure System extends Disk where
  handles : FileVar → Option OpenFile
  /-- What the clock has answered last. -/
  uptime : ℤ

namespace System

def withHandle (s : System) (file : FileVar) (h : Option OpenFile) : System :=
  { s with handles := Function.update s.handles file h }

def openFile (s : System) (file : FileVar) (path : String) : System where
  toDisk := s.toDisk.create path
  handles := Function.update s.handles file (some (.opened path (s.content path)))
  uptime := s.uptime

def closeFile (s : System) (file : FileVar) (h : OpenFile) : System where
  toDisk := if h.written then s.toDisk.commit h.path h.data else s.toDisk
  handles := Function.update s.handles file none
  uptime := s.uptime

/-- A power cut loses the open files. -/
def powerUp (s : System) : System := { s with handles := fun _ => none }

/-- A disk with one file. -/
def holding (path : String) (data : List UInt8) : System where
  toDisk := Disk.formatted.commit path data
  handles := fun _ => none
  uptime := 0

theorem holding_files (path : String) (data : List UInt8) :
    (holding path data).files path = some data := Disk.commit_files_self

theorem holding_content (path : String) (data : List UInt8) :
    (holding path data).content path = data := by
  rw [Disk.content, holding_files, Option.getD_some]

end System

/-! ## The calls -/

/-- Which calls may fail, and how many bytes a write of a given length may accept. -/
structure Faults where
  fails : {ρ : Type} → Call ρ → Prop
  writes : ℕ → ℕ → Prop

def noFaults : Faults := ⟨fun _ => False, fun len count => count = len⟩

/-- The answer says that the call failed. -/
def Failed : {ρ : Type} → Call ρ → ρ → Prop
  | _, .flashAreaClose, _ => False
  | _, .fsReaddir, r => r.1 < 0
  | _, .fsStat _, r => r.1 < 0
  | _, .fsRead _ _, r => r.1 < 0
  | _, .kUptimeGet, _ => False
  | _, .memFault, _ => False
  | _, .flashAreaOpen, r => r < 0
  | _, .flashAreaFlatten, r => r < 0
  | _, .fsMount, r => r < 0
  | _, .fsStatvfs, r => r < 0
  | _, .fsOpendir _, r => r < 0
  | _, .fsClosedir, r => r < 0
  | _, .fsOpen _ _, r => r < 0
  | _, .fsSeek _ _, r => r < 0
  | _, .fsWrite _ _, r => r < 0
  | _, .fsTruncate _ _, r => r < 0
  | _, .fsClose _, r => r < 0
  | _, .fsUnlink _, r => r < 0
  | _, .fsUnmount, r => r < 0

/-- A call on an open file; on one that is not open it fails. -/
def OnHandle (s : System) (file : FileVar) (failed : Prop) (P : OpenFile → Prop) : Prop :=
  match s.handles file with
  | none => failed
  | some h => P h

/-- The call does its work. -/
def Done (f : Faults) : {ρ : Type} → Call ρ → System → ρ → System → Prop
  | _, .flashAreaOpen, s, r, t => r = 0 ∧ t = s
  -- a wiped area is formatted anew
  | _, .flashAreaFlatten, s, r, t => r = 0 ∧ t = { s with toDisk := .formatted }
  | _, .flashAreaClose, s, _, t => t = s
  | _, .fsMount, s, r, t => r = 0 ∧ t = s
  | _, .fsStatvfs, s, r, t => r = 0 ∧ t = s
  | _, .fsOpendir _, s, r, t => r = 0 ∧ t = s
  | _, .fsReaddir, s, r, t => r.1 = 0 ∧ t = s
  | _, .fsClosedir, s, r, t => r = 0 ∧ t = s
  | _, .fsOpen file path, s, r, t => r = 0 ∧ t = s.openFile file path
  | _, .fsStat path, s, r, t =>
    match s.files path with
    | none => r.1 < 0 ∧ t = s
    | some data => r = (0, ⟨.file, data.length⟩) ∧ t = s
  | _, .fsRead file len, s, r, t => OnHandle s file (r.1 < 0 ∧ t = s) fun h =>
    r = (((h.chunk len).length : ℤ), h.chunk len) ∧ t = s.withHandle file (some (h.read len))
  | _, .fsSeek file pos, s, r, t => OnHandle s file (r < 0 ∧ t = s) fun h =>
    r = 0 ∧ t = s.withHandle file (some (h.seek pos))
  | _, .fsWrite file data, s, r, t => OnHandle s file (r < 0 ∧ t = s) fun h =>
    ∃ n, f.writes data.length n ∧ r = n ∧ t = s.withHandle file (some (h.write (data.take n)))
  | _, .fsTruncate file len, s, r, t => OnHandle s file (r < 0 ∧ t = s) fun h =>
    r = 0 ∧ t = s.withHandle file (some (h.truncate len))
  | _, .fsClose file, s, r, t => OnHandle s file (r < 0 ∧ t = s) fun h =>
    r = 0 ∧ t = s.closeFile file h
  | _, .fsUnlink path, s, r, t =>
    match s.files path with
    | none => r < 0 ∧ t = s
    | some _ => r = 0 ∧ t = { s with toDisk := s.toDisk.unlink path }
  | _, .fsUnmount, s, r, t => r = 0 ∧ t = s
  | _, .kUptimeGet, s, r, t => t = { s with uptime := r }
  | _, .memFault, s, _, t => t = s

def device (f : Faults) : Device Call System where
  answer c s r t := Done f c s r t ∨ f.fails c ∧ Failed c r ∧ t = s
  move _ _ := False

instance (f : Faults) : (device f).Quiet := ⟨fun _ _ h => h⟩

theorem answer_noFaults {ρ : Type} {c : Call ρ} {s t : System} {r : ρ} :
    (device noFaults).answer c s r t ↔ Done noFaults c s r t := by
  show (Done noFaults c s r t ∨ False ∧ Failed c r ∧ t = s) ↔ Done noFaults c s r t
  rw [false_and, or_false]

theorem onHandle_some {s : System} {file : FileVar} {h : OpenFile} {failed : Prop}
    {P : OpenFile → Prop} (hs : s.handles file = some h) : OnHandle s file failed P ↔ P h := by
  unfold OnHandle
  rw [hs]

/-! ## Runs of the device -/

/-- A device without faults, empty directories and a clock that stands still. -/
def reply {ρ : Type} : Call ρ → System → Option (ρ × System)
  | .flashAreaOpen, s => some (0, s)
  | .flashAreaFlatten, s => some (0, { s with toDisk := .formatted })
  | .flashAreaClose, s => some ((), s)
  | .fsMount, s => some (0, s)
  | .fsStatvfs, s => some (0, s)
  | .fsOpendir _, s => some (0, s)
  | .fsReaddir, s => some ((0, ""), s)
  | .fsClosedir, s => some (0, s)
  | .fsOpen file path, s => some (0, s.openFile file path)
  | .fsStat path, s => (s.files path).map fun data => ((0, ⟨.file, data.length⟩), s)
  | .fsRead file len, s => (s.handles file).map fun h =>
    ((((h.chunk len).length : ℤ), h.chunk len), s.withHandle file (some (h.read len)))
  | .fsSeek file pos, s => (s.handles file).map fun h =>
    (0, s.withHandle file (some (h.seek pos)))
  | .fsWrite file data, s => (s.handles file).map fun h =>
    ((data.length : ℤ), s.withHandle file (some (h.write data)))
  | .fsTruncate file len, s => (s.handles file).map fun h =>
    (0, s.withHandle file (some (h.truncate len)))
  | .fsClose file, s => (s.handles file).map fun h => (0, s.closeFile file h)
  | .fsUnlink path, s => (s.files path).map fun _ => (0, { s with toDisk := s.toDisk.unlink path })
  | .fsUnmount, s => some (0, s)
  | .kUptimeGet, s => some (0, { s with uptime := 0 })
  | .memFault, _ => none

theorem reply_follows : Script.Follows reply (device noFaults) := by
  intro ρ c s r t h
  refine ⟨s, .refl, ?_⟩
  rw [answer_noFaults]
  cases c with
  | fsStat path =>
    obtain ⟨data, hdata, heq⟩ := Option.map_eq_some_iff.mp h
    cases heq
    simp only [Done, hdata, true_and]
  | fsUnlink path =>
    obtain ⟨data, hdata, heq⟩ := Option.map_eq_some_iff.mp h
    cases heq
    simp only [Done, hdata, true_and]
  | fsWrite file data =>
    obtain ⟨f, hf, heq⟩ := Option.map_eq_some_iff.mp h
    cases heq
    rw [Done, onHandle_some hf]
    refine ⟨data.length, rfl, rfl, ?_⟩
    rw [List.take_length]
  | fsRead | fsSeek | fsTruncate | fsClose =>
    obtain ⟨f, hf, heq⟩ := Option.map_eq_some_iff.mp h
    cases heq
    rw [Done, onHandle_some hf]
    exact ⟨rfl, rfl⟩
  | memFault => cases h
  | fsReaddir | flashAreaClose | kUptimeGet =>
    cases h
    simp [Done]
  | _ =>
    cases h
    exact ⟨rfl, rfl⟩

end NrfProjects.Littlefs
