import Mathlib.Data.Int.Notation
import Mathlib.Data.Nat.Notation
import NrfProjects.Interaction.Program

/-! # The settings demo (`demos2/settings_demo`)

`main` loads one byte from the settings storage, counts it up or deletes it, and reboots. The
storage calls back `foo_settings_set` for the entries it loads. Sleeping is left out; the reboot is
the end of the program. -/

namespace NrfProjects.Settings
set_option autoImplicit false
open Interaction

/-- The name of an entry, as its parts between the separators. -/
abbrev Name : Type := List String

def fooBar : Name := ["foo", "bar"]

inductive Message
  | rebooted
  | loadFailed
  | readFoo (v : UInt8)
  | usingDefault (v : UInt8)
  | rewritten (v : UInt8)
  | deleting
  | deleteFailed (rc : ℤ)
  | deleted
  | foo (v : UInt8)

/-- `loadNext` is where `settings_load` goes on after its last callback: it answers with the code to
return, or with the name and the length of the next entry. A read answers with its return code and
the bytes it stored. -/
inductive Call : Type → Type
  | settingsSubsysInit : Call ℤ
  | settingsRegister : Call ℤ
  | loadNext (handled : ℤ) : Call (ℤ ⊕ Name × ℕ)
  | readCb (name : Name) (len : ℕ) : Call (ℤ × List UInt8)
  | settingsSaveOne (name : Name) (data : List UInt8) : Call ℤ
  | settingsDelete (name : Name) : Call ℤ
  | printk (m : Message) : Call Unit

def EINVAL : ℤ := 22

def ENOENT : ℤ := 2

/-- The static variables, which every boot starts from their initial values. -/
structure Statics where
  fooVal : UInt8
  fooValLoaded : Bool

def initial : Statics := ⟨0, false⟩

/-- If the first part of the name is `key`, the parts after it. -/
def settingsNameSteq : Name → String → Option Name
  | part :: next, key => if part = key then some next else none
  | [], _ => none

/-- The handler of the subtree `foo`; `name` is what follows it in the name of the entry. -/
def fooSettingsSet (name : Name) (len : ℕ) (g : Statics) : Prog Call (ℤ × Statics) := do
  if settingsNameSteq name "bar" = some [] then
    if len ≠ 1 then
      return (-EINVAL, g)
    let (rc, data) ← Call.readCb name 1
    let g := { g with fooVal := data.headD g.fooVal }
    if rc ≥ 0 then
      return (0, { g with fooValLoaded := true })
    return (rc, g)
  return (-ENOENT, g)

def settingsLoad (g : Statics) : Prog Call (ℤ × Statics) :=
  Prog.repeatM ((0, g) : ℤ × Statics) fun x => do
    match ← Call.loadNext x.1 with
    | .inl rc => return .inr (rc, x.2)
    | .inr (name, len) => return .inl (← fooSettingsSet name len x.2)

def exampleDelete : Prog Call Unit := do
  Call.printk .deleting
  let rc ← Call.settingsDelete fooBar
  if rc ≠ 0 then
    Call.printk (.deleteFailed rc)
  else
    Call.printk .deleted

/-- What `main` does with the value it has, loaded or not. -/
def update (g : Statics) : Prog Call Unit := do
  if g.fooVal > 10 then
    Call.printk (.rewritten g.fooVal)
    -- `foo_val = 0` is lost with the reboot
    exampleDelete
  else
    let fooVal := g.fooVal + 1
    let _ ← Call.settingsSaveOne fooBar [fooVal]
    Call.printk (.foo fooVal)

def main : Prog Call Unit := do
  Call.printk .rebooted
  let _ ← Call.settingsSubsysInit
  let _ ← Call.settingsRegister
  let (rc, g) ← settingsLoad initial
  if rc ≠ 0 then
    Call.printk .loadFailed
  else if g.fooValLoaded then
    Call.printk (.readFoo g.fooVal)
  else
    Call.printk (.usingDefault g.fooVal)
  update g

end NrfProjects.Settings
