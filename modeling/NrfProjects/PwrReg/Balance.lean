import Mathlib.Tactic.ByContra
import NrfProjects.PwrReg.Main

/-! # When the reference count stays balanced

`cycle` disables the regulator whether or not it was enabled, and enables it whether or not it was
disabled. So a single failed driver operation leaves the count off by one for ever after: the loop
is balanced exactly when the driver never fails. -/

namespace NrfProjects.PwrReg
set_option autoImplicit false
open Interaction

def Balanced (s : State) : Prop := s.refcount = 0 ∨ s.refcount = 1

/-- The count is 0 or 1 at each point, and the output is what the demo reports. -/
def truthful : Watch Call State where
  atLoop := Balanced
  atCall
    | .log .ledOn, s => Balanced s ∧ s.output = true
    | .log .ledOff, s => Balanced s ∧ s.output = false
    | _, s => Balanced s

/-- Every run of the loop from `s` meets `truthful`. -/
def Sound (outcome : ℕ → Option Errno) (s : State) : Prop :=
  Safe (device outcome) truthful cycles s fun _ _ => True

variable {outcome : ℕ → Option Errno} {s : State}

theorem sound_unroll : Sound outcome s ↔
    Balanced s ∧ Safe (device outcome) truthful cycle s fun x t =>
      x.elim (fun _ => Sound outcome t) fun _ => True := by
  rw [Sound, cycles, safe_repeatM_quiet]
  rfl

/-! ## No failure -/

/-- With both driver operations of a cycle successful, the count is back at 0. -/
theorem cycle_ok (hs : s.refcount = 0) (h0 : outcome s.operations = none)
    (h1 : outcome (s.operations + 1) = none) :
    Safe (device outcome) truthful cycle s fun x t => x = .inl () ∧ t.refcount = 0 := by
  simp [cycle, safe_bind, regulatorEnable, regulatorDisable, drive, truthful, Balanced, hs, h0, h1]

theorem sound_of_ok (h : ∀ n, outcome n = none) (hs : s.refcount = 0) : Sound outcome s := by
  refine Safe.repeatM_quiet (fun _ t => t.refcount = 0) hs (fun _ _ ht => .inl ht) ?_
  intro _ t ht
  refine (cycle_ok ht (h _) (h _)).imp ?_
  rintro x u ⟨rfl, hu⟩
  exact hu

/-! ## One failure -/

/-- A failed enable lets the disable of the same cycle take the count below 0. -/
theorem enable_ok (h : Sound outcome s) (hs : s.refcount = 0) : outcome s.operations = none := by
  by_contra hne
  obtain ⟨e, he⟩ := Option.ne_none_iff_exists'.mp hne
  have hc := (sound_unroll.mp h).2
  simp [cycle, safe_bind, regulatorEnable, regulatorDisable, drive, truthful, Balanced, hs, he,
    e.code_ne_zero] at hc

/-- From a count of 1 the next enable goes to 2, without asking the driver. -/
theorem not_sound_of_one (hs : s.refcount = 1) : ¬ Sound outcome s := by
  intro h
  have hc := (sound_unroll.mp h).2
  simp [cycle, safe_bind, regulatorEnable, truthful, Balanced, hs] at hc

/-- A failed disable leaves the count at 1 for the next cycle. -/
theorem disable_ok (h : Sound outcome s) (hs : s.refcount = 0) :
    outcome (s.operations + 1) = none := by
  have h0 := enable_ok h hs
  by_contra hne
  obtain ⟨e, he⟩ := Option.ne_none_iff_exists'.mp hne
  have hc := (sound_unroll.mp h).2
  simp [cycle, safe_bind, regulatorEnable, regulatorDisable, drive, truthful, Balanced, hs, h0, he,
    e.code_ne_zero] at hc
  exact not_sound_of_one rfl hc

theorem sound_next (h : Sound outcome s) (hs : s.refcount = 0) :
    Sound outcome ⟨0, false, s.operations + 2⟩ := by
  have h0 := enable_ok h hs
  have h1 := disable_ok h hs
  have hc := (sound_unroll.mp h).2
  simpa [cycle, safe_bind, regulatorEnable, regulatorDisable, drive, truthful, Balanced, hs, h0,
    h1] using hc

/-- By induction on the cycles: each is reached with the count at 0, so none of them may fail. -/
theorem ok_of_sound (h : Sound outcome s) (hs : s.refcount = 0) (k : ℕ) :
    outcome (s.operations + 2 * k) = none ∧ outcome (s.operations + 2 * k + 1) = none := by
  induction k generalizing s with
  | zero => exact ⟨enable_ok h hs, disable_ok h hs⟩
  | succ k ih =>
    have hk := ih (sound_next h hs) rfl
    have e : s.operations + 2 * (k + 1) = s.operations + 2 + 2 * k := by omega
    rw [e]
    exact hk

/-- **The loop is balanced exactly when no driver operation ever fails.** -/
theorem balanced_iff_no_failure (outcome : ℕ → Option Errno) :
    Safe (device outcome) truthful main boot (fun _ _ => True) ↔ ∀ n, outcome n = none := by
  have hmain : Safe (device outcome) truthful main boot (fun _ _ => True) ↔
      Sound outcome boot := by
    simp [main, safe_bind, truthful, Balanced, boot, Sound]
  rw [hmain]
  constructor
  · intro h n
    have hk := ok_of_sound h rfl (n / 2)
    rcases Nat.mod_two_eq_zero_or_one n with hn | hn
    · have e : n = boot.operations + 2 * (n / 2) := by simp only [boot]; omega
      rw [e]
      exact hk.1
    · have e : n = boot.operations + 2 * (n / 2) + 1 := by simp only [boot]; omega
      rw [e]
      exact hk.2
  · intro h
    exact sound_of_ok h rfl

/-- Only the first driver operation fails. -/
def firstEnableFails : ℕ → Option Errno := fun n => if n = 0 then some .ioError else none

/-- Once the first enable has failed, the second is reported as a success with the LED off. -/
theorem reported_on_while_off :
    ¬ Safe (device firstEnableFails) truthful main boot (fun _ _ => True) := by
  intro h
  have hm := h _ _ (replay_steps script_follows 8 (main, boot))
  exact Bool.false_ne_true hm.2

end NrfProjects.PwrReg
